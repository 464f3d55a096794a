import Mathlib
import Untyped.Json.Reader

/-! What each reader answers, as plain pairs of what was read and the rest. Every reader has one
equation here; the proofs about readers start from these equations and not from the definitions,
whose results carry the proof that the rest is shorter. -/
namespace Untyped.Json

abbrev Outcome (α : Type) := Except Failure (α × List Char)

variable {α β γ : Type} {text later : List Char}

def follow (first : Outcome α) (second : α → List Char → Outcome β) : Outcome β :=
  match first with
  | .error e => .error e
  | .ok (v, rest) => second v rest

@[simp] theorem follow_ok (v : α) (rest : List Char) (second : α → List Char → Outcome β) :
    follow (.ok (v, rest)) second = second v rest := rfl

@[simp] theorem follow_error (e : Failure) (second : α → List Char → Outcome β) :
    follow (.error e) second = .error e := rfl

theorem follow_eq_ok {first : Outcome α} {second : α → List Char → Outcome β} {w : β}
    {rest : List Char} :
    follow first second = .ok (w, rest) ↔
      ∃ v middle, first = .ok (v, middle) ∧ second v middle = .ok (w, rest) := by
  cases first with
  | error e => simp
  | ok p => simp [follow, Prod.ext_iff]

theorem follow_eq_error {first : Outcome α} {second : α → List Char → Outcome β} {e : Failure} :
    follow first second = .error e ↔
      first = .error e ∨ ∃ v middle, first = .ok (v, middle) ∧ second v middle = .error e := by
  cases first with
  | error e => simp
  | ok p => simp [follow, Prod.ext_iff]

/-- A reading without the proof that its rest is shorter. -/
def outcome (r : Reading α text) : Outcome α := r.map fun p => (p.value, p.rest)

@[simp] theorem outcome_ok (p : Parsed α text) : outcome (.ok p) = .ok (p.value, p.rest) := rfl

@[simp] theorem outcome_error (e : Failure) : outcome (.error e : Reading α text) = .error e := rfl

theorem exists_parsed {r : Reading α text} {v : α} {rest : List Char}
    (h : outcome r = .ok (v, rest)) :
    ∃ p : Parsed α text, r = .ok p ∧ p.value = v ∧ p.rest = rest := by
  cases r with
  | error e => cases h
  | ok p =>
    cases h
    exact ⟨p, rfl, rfl, rfl⟩

theorem length_lt_of_outcome {r : Reading α text} {v : α} {rest : List Char}
    (h : outcome r = .ok (v, rest)) : rest.length < text.length := by
  obtain ⟨p, _, _, rfl⟩ := exists_parsed h
  exact p.shorter

theorem outcome_map (r : Reading α later) (g : Parsed α later → Parsed β text) (f : α → β)
    (hv : ∀ p, (g p).value = f p.value) (hr : ∀ p, (g p).rest = p.rest) :
    outcome (r.map g) = follow (outcome r) fun v rest => .ok (f v, rest) := by
  cases r with
  | error e => rfl
  | ok p =>
    show Except.ok ((g p).value, (g p).rest) = Except.ok (f p.value, p.rest)
    rw [hv, hr]

theorem outcome_map_cons (c : Char) (r : Reading α text) (f : α → β) :
    outcome (r.map fun p => (p.map f).cons c) = follow (outcome r) fun v rest => .ok (f v, rest) :=
  outcome_map r _ f (fun _ => rfl) fun _ => rfl

theorem outcome_map_value (r : Reading α text) (f : α → β) :
    outcome (r.map (Parsed.map f)) = follow (outcome r) fun v rest => .ok (f v, rest) :=
  outcome_map r _ f (fun _ => rfl) fun _ => rfl

/-! ### Strings -/

theorem outcome_readPairing_cons (expected c : Char) (rest : List Char) :
    outcome (readPairing expected (c :: rest)) =
      if c = expected then .ok ((), rest)
      else .error (.after 1 .unpairedSurrogate (c :: rest)) := by
  rw [readPairing]
  split <;> rfl

theorem outcome_readLowSurrogate (text : List Char) :
    outcome (readLowSurrogate text) =
      follow (outcome (readPairing '\\' text)) fun _ afterSlash =>
      follow (outcome (readPairing 'u' afterSlash)) fun _ afterLetter =>
      follow (outcome (readHex afterLetter)) fun low rest =>
      if isLowSurrogate low then .ok (low, rest) else .error (.after 0 .loneSurrogate rest) := by
  simp only [readLowSurrogate, bind, Except.bind]
  cases readPairing '\\' text with
  | error e => rfl
  | ok backslash =>
    simp only [outcome_ok, follow_ok]
    cases readPairing 'u' backslash.rest with
    | error e => rfl
    | ok letter =>
      simp only [outcome_ok, follow_ok]
      cases readHex letter.rest with
      | error e => rfl
      | ok low =>
        simp only [outcome_ok, follow_ok]
        split <;> rfl

theorem outcome_readUnicode (text : List Char) :
    outcome (readUnicode text) =
      follow (outcome (readHex text)) fun first rest =>
      if isLowSurrogate first then .error (.after 0 .loneSurrogate rest)
      else if isHighSurrogate first then
        follow (outcome (readLowSurrogate rest)) fun low rest => .ok (pairedChar first low, rest)
      else .ok (Char.ofNat first, rest) := by
  simp only [readUnicode, bind, Except.bind]
  cases readHex text with
  | error e => rfl
  | ok first =>
    simp only [outcome_ok, follow_ok]
    split
    next => rfl
    next =>
      split
      next =>
        cases readLowSurrogate first.rest with
        | error e => rfl
        | ok low => simp only [outcome_ok, follow_ok, pure, Except.pure, Parsed.andThen]
      next => rfl

theorem outcome_readEscape_cons (c : Char) (rest : List Char) :
    outcome (readEscape (c :: rest)) =
      if c = 'u' then outcome (readUnicode rest)
      else
        match escaped? c with
        | some e => .ok (e, rest)
        | none => .error (.after 1 .invalidEscape (c :: rest)) := by
  rw [readEscape]
  split
  next => cases readUnicode rest <;> rfl
  next => cases escaped? c <;> rfl

theorem outcome_readString_cons (c : Char) (rest : List Char) :
    outcome (readString (c :: rest)) =
      if c = '"' then .ok ([], rest)
      else if c.toNat < 0x20 then .error (.after 1 .controlCharacter (c :: rest))
      else if c = '\\' then
        follow (outcome (readEscape rest)) fun e afterEscape =>
        follow (outcome (readString afterEscape)) fun cs rest => .ok (e :: cs, rest)
      else follow (outcome (readString rest)) fun cs rest => .ok (c :: cs, rest) := by
  rw [readString]
  split
  next => rfl
  next =>
    split
    next => rfl
    next =>
      split
      next =>
        cases h : readEscape rest with
        | error e => rfl
        | ok p =>
          exact outcome_map _ _ (List.cons p.value) (fun _ => rfl) fun _ => rfl
      next => exact outcome_map _ _ (List.cons c) (fun _ => rfl) fun _ => rfl

/-! ### Number literals -/

theorem outcome_readWhole_cons (c : Char) (rest : List Char) :
    outcome (readWhole (c :: rest)) =
      match Digit.ofChar? c with
      | none => .error (.after 1 .invalidNumber (c :: rest))
      | some first =>
        if first = Digit.zero then
          if (Digit.span rest).1 = [] then .ok ([first], rest)
          else .error (.after 1 .invalidNumber rest)
        else .ok (first :: (Digit.span rest).1, (Digit.span rest).2) := by
  rw [readWhole]
  cases Digit.ofChar? c with
  | none => rfl
  | some first =>
    dsimp only
    split
    next =>
      split
      next hs => simp only [hs, if_true]; rfl
      next hs => simp only [hs, reduceCtorEq, if_false, outcome_error]
    next => rfl

theorem outcome_readNumeral (negative : Bool) (text : List Char) :
    outcome (readNumeral negative text) =
      follow (outcome (readWhole text)) fun whole afterWhole =>
      follow (readFraction afterWhole) fun fraction afterFraction =>
      follow (readExponent afterFraction) fun exponent rest =>
      .ok (⟨negative, whole, fraction, exponent⟩, rest) := by
  rw [readNumeral]
  cases readWhole text with
  | error e => rfl
  | ok whole =>
    rw [outcome_ok, follow_ok]
    dsimp only
    split
    next hf => simp only [hf, follow_error, outcome_error]
    next fraction afterFraction hf =>
      simp only [hf, follow_ok]
      split
      next he => simp only [he, follow_error, outcome_error]
      next he => simp only [he, follow_ok]; rfl

theorem outcome_readNumber (negative : Bool) (text : List Char) :
    outcome (readNumber negative text) =
      follow (outcome (readNumeral negative text)) fun numeral rest =>
      match numeral.toNumber with
      | .ok n => .ok (n, rest)
      | .error unread => .error ⟨.numberOutOfRange, Text.byteLength rest + unread⟩ := by
  rw [readNumber]
  cases readNumeral negative text with
  | error e => rfl
  | ok p =>
    rw [outcome_ok, follow_ok]
    dsimp only
    cases p.value.toNumber <;> rfl

/-! ### Arrays and objects -/

variable (item : ItemReader)

theorem outcome_readMoreItems (text : List Char) :
    outcome (readMoreItems item text) =
      match skipBlank text with
      | [] => .error (.atEnd .endInList)
      | c :: rest =>
        if c = ']' then .ok ([], rest)
        else if c = ',' then
          if (skipBlank rest).head? = some ']' then
            .error (.after 1 .trailingComma (skipBlank rest))
          else
            follow (outcome (item rest)) fun j afterItem =>
            follow (outcome (readMoreItems item afterItem)) fun js rest => .ok (j :: js, rest)
        else .error (.after 1 .expectedCommaOrBracket (c :: rest)) := by
  rw [readMoreItems]
  split
  next h => simp only [h, outcome_error]
  next c rest h =>
    simp only [h]
    split
    next => rfl
    next =>
      split
      next =>
        split
        next => rfl
        next =>
          cases item rest with
          | error e => rfl
          | ok p => exact outcome_map _ _ (List.cons p.value) (fun _ => rfl) fun _ => rfl
      next => rfl

theorem outcome_readItems (text : List Char) :
    outcome (readItems item text) =
      match skipBlank text with
      | [] => .error (.atEnd .endInList)
      | c :: rest =>
        if c = ']' then .ok ([], rest)
        else
          follow (outcome (item (c :: rest))) fun j afterItem =>
          follow (outcome (readMoreItems item afterItem)) fun js rest => .ok (j :: js, rest) := by
  rw [readItems]
  split
  next h => simp only [h, outcome_error]
  next c rest h =>
    simp only [h]
    split
    next => rfl
    next =>
      cases item (c :: rest) with
      | error e => rfl
      | ok p => exact outcome_map _ _ (List.cons p.value) (fun _ => rfl) fun _ => rfl

theorem outcome_readNamed (text : List Char) :
    outcome (readNamed item text) =
      match skipBlank text with
      | [] => .error (.atEnd .endInObject)
      | c :: rest =>
        if c = ':' then outcome (item rest)
        else .error (.after 1 .expectedColon (c :: rest)) := by
  rw [readNamed]
  split
  next h => simp only [h, outcome_error]
  next c rest h =>
    simp only [h]
    split
    next => cases item rest <;> rfl
    next => rfl

theorem outcome_readMember_cons (c : Char) (rest : List Char) :
    outcome (readMember item (c :: rest)) =
      if c = '"' then
        follow (outcome (readString rest)) fun name afterName =>
        follow (outcome (readNamed item afterName)) fun j rest =>
        .ok ((String.ofList name, j), rest)
      else .error (.after 1 .keyNotString (c :: rest)) := by
  rw [readMember]
  split
  next =>
    cases readString rest with
    | error e => rfl
    | ok name =>
      exact outcome_map _ _ (fun j => (String.ofList name.value, j)) (fun _ => rfl) fun _ => rfl
  next => rfl

theorem outcome_readMoreMembers (text : List Char) :
    outcome (readMoreMembers item text) =
      match skipBlank text with
      | [] => .error (.atEnd .endInObject)
      | c :: rest =>
        if c = '\x7d' then .ok ([], rest)
        else if c = ',' then
          if (skipBlank rest).head? = some '\x7d' then
            .error (.after 1 .trailingComma (skipBlank rest))
          else
            follow (outcome (readMember item (skipBlank rest))) fun m afterMember =>
            follow (outcome (readMoreMembers item afterMember)) fun ms rest => .ok (m :: ms, rest)
        else .error (.after 1 .expectedCommaOrBrace (c :: rest)) := by
  rw [readMoreMembers]
  split
  next h => simp only [h, outcome_error]
  next c rest h =>
    simp only [h]
    split
    next => rfl
    next =>
      split
      next =>
        split
        next => rfl
        next =>
          cases readMember item (skipBlank rest) with
          | error e => rfl
          | ok p => exact outcome_map _ _ (List.cons p.value) (fun _ => rfl) fun _ => rfl
      next => rfl

theorem outcome_readMembers (text : List Char) :
    outcome (readMembers item text) =
      match skipBlank text with
      | [] => .error (.atEnd .endInObject)
      | c :: rest =>
        if c = '\x7d' then .ok ([], rest)
        else
          follow (outcome (readMember item (c :: rest))) fun m afterMember =>
          follow (outcome (readMoreMembers item afterMember)) fun ms rest =>
          .ok (m :: ms, rest) := by
  rw [readMembers]
  split
  next h => simp only [h, outcome_error]
  next c rest h =>
    simp only [h]
    split
    next => rfl
    next =>
      cases readMember item (c :: rest) with
      | error e => rfl
      | ok p => exact outcome_map _ _ (List.cons p.value) (fun _ => rfl) fun _ => rfl

/-! ### Trees -/

theorem outcome_readLiteral (letters : List Char) (j : Json) (c : Char) (rest : List Char) :
    outcome (readLiteral letters j c rest) =
      (readWord letters rest).map fun after => (j, after) := by
  rw [readLiteral]
  split
  next h => simp only [h]; rfl
  next h => simp only [h]; rfl

def insideOutcome (inner : Option ItemReader) (text : List Char)
    (inside : ItemReader → Outcome Json) : Outcome Json :=
  match inner with
  | none => .error (.after 1 .recursionLimit text)
  | some item => inside item

theorem outcome_readTree (inner : Option ItemReader) (c : Char) (rest : List Char) :
    outcome (readTree inner c rest) =
      if c = 'n' then (readWord ['u', 'l', 'l'] rest).map fun after => (.null, after)
      else if c = 't' then (readWord ['r', 'u', 'e'] rest).map fun after => (.bool true, after)
      else if c = 'f' then
        (readWord ['a', 'l', 's', 'e'] rest).map fun after => (.bool false, after)
      else if c = '-' then
        follow (outcome (readNumber true rest)) fun n rest => .ok (.number n, rest)
      else if (Digit.ofChar? c).isSome then
        follow (outcome (readNumber false (c :: rest))) fun n rest => .ok (.number n, rest)
      else if c = '"' then
        follow (outcome (readString rest)) fun cs rest => .ok (.string (String.ofList cs), rest)
      else if c = '[' then
        insideOutcome inner (c :: rest) fun item =>
          follow (outcome (readItems item rest)) fun js rest => .ok (.ofItems js, rest)
      else if c = '\x7b' then
        insideOutcome inner (c :: rest) fun item =>
          follow (outcome (readMembers item rest)) fun ms rest => .ok (.ofMembers ms, rest)
      else .error (.after 1 .expectedValue (c :: rest)) := by
  unfold readTree
  cases inner <;>
    simp only [apply_ite outcome, outcome_readLiteral, outcome_map_cons, outcome_map_value,
      outcome_error, insideOutcome]

theorem outcome_readItem (inner : Option ItemReader) (text : List Char) :
    outcome (readItem inner text) =
      match skipBlank text with
      | [] => .error (.atEnd .endInValue)
      | c :: rest => outcome (readTree inner c rest) := by
  rw [readItem]
  split
  next h => simp only [h, outcome_error]
  next c rest h =>
    simp only [h]
    cases readTree inner c rest <;> rfl

theorem readNested_eq (depth : Nat) :
    readNested depth = readItem (match depth with | 0 => none | d + 1 => some (readNested d)) := by
  cases depth <;> rfl

theorem readChars_eq (text : List Char) :
    readChars text =
      match outcome (readNested maxDepth text) with
      | .error e => .error e
      | .ok (j, rest) =>
        match skipBlank rest with
        | [] => .ok j
        | c :: rest => .error (.after 1 .trailingCharacters (c :: rest)) := by
  rw [readChars]
  cases readNested maxDepth text <;> rfl

end Untyped.Json
