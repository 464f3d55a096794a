import Mathlib
import Untyped.Proofs.Json.Locality

/-! Reading never leaves its text: what is left over is a part of the text, and so is what stands
behind the place of a failure, so that every failure is placed in the text or at its end. -/
namespace Untyped.Json
open Text (byteLength byteLength_append length_le_byteLength)

variable {α β : Type} {n : Nat}

/-- No more bytes than the given ones are left over, or stand behind the place of the failure. -/
def Inside (n : Nat) : Outcome α → Prop
  | .ok (_, rest) => byteLength rest ≤ n
  | .error e => e.left ≤ n

namespace Inside

theorem atEnd (r : Reason) : Inside n (.error (.atEnd r) : Outcome α) := Nat.zero_le n

theorem after (bytes : Nat) (r : Reason) {rest : List Char} (h : byteLength rest ≤ n) :
    Inside n (.error (.after bytes r rest) : Outcome α) :=
  Nat.le_trans (Nat.sub_le _ _) h

theorem follow {first : Outcome α} {second : α → List Char → Outcome β} (h : Inside n first)
    (later : ∀ v rest, first = .ok (v, rest) → byteLength rest ≤ n → Inside n (second v rest)) :
    Inside n (Json.follow first second) := by
  cases first with
  | error e => exact h
  | ok p => exact later p.1 p.2 rfl h

end Inside

theorem byteLength_le_of_cons {c : Char} {rest : List Char} (h : byteLength (c :: rest) ≤ n) :
    byteLength rest ≤ n :=
  Nat.le_trans (Nat.le_add_left _ _) h

theorem byteLength_le_of_append {a b : List Char} (h : byteLength (a ++ b) ≤ n) :
    byteLength b ≤ n := by
  rw [byteLength_append] at h
  omega

theorem byteLength_le_of_skipBlank {text rest : List Char} (skipped : skipBlank text = rest)
    (h : byteLength text ≤ n) : byteLength rest ≤ n := by
  rw [← skipped]
  exact Nat.le_trans (byteLength_skipBlank text) h

/-! ### Words and strings -/

theorem inside_readWord (letters : List Char) {text : List Char} (h : byteLength text ≤ n) (v : α) :
    Inside n ((readWord letters text).map fun rest => (v, rest)) := by
  induction letters generalizing text with
  | nil => exact h
  | cons letter letters ih =>
    cases text with
    | nil => exact .atEnd .endInValue
    | cons c rest =>
      rw [readWord]
      split
      next => exact ih (byteLength_le_of_cons h)
      next => exact .after 1 .expectedWord h

theorem inside_readHex {text : List Char} (h : byteLength text ≤ n) :
    Inside n (outcome (readHex text)) := by
  cases hex : outcome (readHex text) with
  | ok p => exact Nat.le_trans (Nat.le_of_lt (byteLength_lt_of_readHex hex)) h
  | error e =>
    rw [readHex_error hex]
    split
    next => exact .atEnd .endInString
    next => exact .after 4 .invalidEscape h

theorem inside_readPairing (expected : Char) {text : List Char} (h : byteLength text ≤ n) :
    Inside n (outcome (readPairing expected text)) := by
  cases text with
  | nil => exact .atEnd .endInString
  | cons c rest =>
    rw [outcome_readPairing_cons]
    split
    next => exact byteLength_le_of_cons h
    next => exact .after 1 .unpairedSurrogate h

theorem inside_readLowSurrogate {text : List Char} (h : byteLength text ≤ n) :
    Inside n (outcome (readLowSurrogate text)) := by
  rw [outcome_readLowSurrogate]
  refine (inside_readPairing '\\' h).follow fun _ rest _ h => ?_
  refine (inside_readPairing 'u' h).follow fun _ rest _ h => ?_
  refine (inside_readHex h).follow fun low rest _ h => ?_
  split
  next => exact h
  next => exact .after 0 .loneSurrogate h

theorem inside_readUnicode {text : List Char} (h : byteLength text ≤ n) :
    Inside n (outcome (readUnicode text)) := by
  rw [outcome_readUnicode]
  refine (inside_readHex h).follow fun first rest _ h => ?_
  split
  next => exact .after 0 .loneSurrogate h
  next =>
    split
    next => exact (inside_readLowSurrogate h).follow fun _ _ _ h => h
    next => exact h

theorem inside_readEscape {text : List Char} (h : byteLength text ≤ n) :
    Inside n (outcome (readEscape text)) := by
  cases text with
  | nil => exact .atEnd .endInString
  | cons c rest =>
    have later := byteLength_le_of_cons h
    rw [outcome_readEscape_cons]
    split
    next => exact inside_readUnicode later
    next =>
      split
      next => exact later
      next => exact .after 1 .invalidEscape h

theorem inside_readString {text : List Char} (h : byteLength text ≤ n) :
    Inside n (outcome (readString text)) := by
  induction hn : text.length using Nat.strongRecOn generalizing text with
  | ind k ih =>
    cases text with
    | nil =>
      rw [readString]
      exact .atEnd .endInString
    | cons c rest =>
      have later := byteLength_le_of_cons h
      rw [List.length_cons] at hn
      rw [outcome_readString_cons]
      split
      next => exact later
      next =>
        split
        next => exact .after 1 .controlCharacter h
        next =>
          split
          next =>
            refine (inside_readEscape later).follow fun e afterEscape he h => ?_
            have := length_lt_of_outcome he
            exact (ih afterEscape.length (by omega) h rfl).follow fun _ _ _ h => h
          next => exact (ih rest.length (by omega) later rfl).follow fun _ _ _ h => h

/-! ### Numbers -/

theorem byteLength_le_of_span {text rest : List Char} {ds : List Digit}
    (spans : Digit.span text = (ds, rest)) (h : byteLength text ≤ n) : byteLength rest ≤ n := by
  rw [Digit.chars_eq_of_span spans] at h
  exact byteLength_le_of_append h

theorem inside_readWhole {text : List Char} (h : byteLength text ≤ n) :
    Inside n (outcome (readWhole text)) := by
  cases text with
  | nil => exact .atEnd .endInValue
  | cons c rest =>
    have later := byteLength_le_of_cons h
    rw [outcome_readWhole_cons]
    split
    next => exact .after 1 .invalidNumber h
    next =>
      split
      next =>
        split
        next => exact later
        next => exact .after 1 .invalidNumber later
      next => exact byteLength_le_of_span rfl later

theorem inside_readFraction {text : List Char} (h : byteLength text ≤ n) :
    Inside n (readFraction text) := by
  unfold readFraction
  split
  next text =>
    have later := byteLength_le_of_cons h
    split
    next => exact .atEnd .endInValue
    next spans => exact .after 1 .invalidNumber (byteLength_le_of_span spans later)
    next spans => exact byteLength_le_of_span spans later
  next => exact h

theorem inside_readExponent {text : List Char} (h : byteLength text ≤ n) :
    Inside n (readExponent text) := by
  cases text with
  | nil => exact h
  | cons c text =>
    rw [readExponent]
    split
    next =>
      have later : byteLength (readSign text).2 ≤ n := by
        obtain ⟨sign, same, _⟩ := exists_sign text
        exact byteLength_le_of_append (same ▸ byteLength_le_of_cons h)
      split
      next => exact .atEnd .endInValue
      next spans => exact .after 1 .invalidNumber (byteLength_le_of_span spans later)
      next spans => exact byteLength_le_of_span spans later
    next => exact h

theorem inside_readNumeral (negative : Bool) {text : List Char} (h : byteLength text ≤ n) :
    Inside n (outcome (readNumeral negative text)) := by
  rw [outcome_readNumeral]
  refine (inside_readWhole h).follow fun _ _ _ h => ?_
  refine (inside_readFraction h).follow fun _ _ _ h => ?_
  exact (inside_readExponent h).follow fun _ _ _ h => h

namespace Numeral

theorem unread_le_of_readPower {power unread : Nat} {ds : List Digit}
    (h : readPower power ds = .error unread) : unread ≤ ds.length := by
  induction ds generalizing power with
  | nil => cases h
  | cons d ds ih =>
    rw [readPower] at h
    split at h
    next => exact Nat.le_succ_of_le (ih h)
    next =>
      cases h
      exact Nat.le_succ _

theorem unread_le_of_toNumber {m : Numeral} {unread : Nat} (h : m.toNumber = .error unread) :
    unread ≤ m.exponent.elim 0 fun e => e.2.length := by
  have float {power : Int} (h : m.toFloat power = .error unread) : unread = 0 := by
    rw [toFloat] at h
    split at h
    next => cases h
    next => exact (Except.error.inj h).symm
  unfold toNumber at h
  split at h
  next => cases h
  next =>
    unfold toRounded at h
    split at h
    next => exact (float h).trans_le (Nat.zero_le _)
    next exponent =>
      rw [exponent]
      split at h
      next => exact (float h).trans_le (Nat.zero_le _)
      next tooLarge =>
        split at h
        next => cases h
        next =>
          cases h
          exact unread_le_of_readPower tooLarge

end Numeral

theorem NumberToken.length_exponent_le (t : NumberToken) :
    (t.numeral.exponent.elim 0 fun e => e.2.length) ≤ t.unsigned.length := by
  rw [numeral, unsigned, List.length_append, List.length_append]
  cases t.exponent with
  | none => exact Nat.zero_le _
  | some e =>
    simp only [Option.map_some, Option.elim_some, Exponent.text, List.length_cons,
      List.length_append, Digit.chars, List.length_map]
    omega

theorem inside_readNumber (negative : Bool) {text : List Char} (h : byteLength text ≤ n) :
    Inside n (outcome (readNumber negative text)) := by
  rw [outcome_readNumber]
  refine (inside_readNumeral negative h).follow fun numeral rest read left => ?_
  split
  next => exact left
  next unread outOfRange =>
    obtain ⟨t, _, rfl, rfl⟩ := exists_token read
    have few := (Numeral.unread_le_of_toNumber outOfRange).trans t.length_exponent_le
    have bytes := length_le_byteLength t.unsigned
    rw [byteLength_append] at h
    change byteLength rest + unread ≤ n
    omega

/-! ### Containers -/

def StaysInside (item : ItemReader) : Prop :=
  ∀ {n : Nat} {text : List Char}, byteLength text ≤ n → Inside n (outcome (item text))

section Containers

variable {item : ItemReader} (stays : StaysInside item)

include stays

theorem inside_readMoreItems {text : List Char} (h : byteLength text ≤ n) :
    Inside n (outcome (readMoreItems item text)) := by
  induction hn : text.length using Nat.strongRecOn generalizing text with
  | ind k ih =>
    rw [outcome_readMoreItems]
    split
    next => exact .atEnd .endInList
    next c rest skipped =>
      have shorter := length_le_of_skipBlank skipped
      have here := byteLength_le_of_skipBlank skipped h
      have later := byteLength_le_of_cons here
      rw [List.length_cons] at shorter
      split
      next => exact later
      next =>
        split
        next =>
          split
          next => exact .after 1 .trailingComma (byteLength_le_of_skipBlank rfl later)
          next =>
            refine (stays later).follow fun j afterItem hj h => ?_
            have := length_lt_of_outcome hj
            exact (ih afterItem.length (by omega) h rfl).follow fun _ _ _ h => h
        next => exact .after 1 .expectedCommaOrBracket here

theorem inside_readItems {text : List Char} (h : byteLength text ≤ n) :
    Inside n (outcome (readItems item text)) := by
  rw [outcome_readItems]
  split
  next => exact .atEnd .endInList
  next skipped =>
    have here := byteLength_le_of_skipBlank skipped h
    split
    next => exact byteLength_le_of_cons here
    next =>
      exact (stays here).follow fun _ _ _ h =>
        (inside_readMoreItems stays h).follow fun _ _ _ h => h

theorem inside_readNamed {text : List Char} (h : byteLength text ≤ n) :
    Inside n (outcome (readNamed item text)) := by
  rw [outcome_readNamed]
  split
  next => exact .atEnd .endInObject
  next skipped =>
    have here := byteLength_le_of_skipBlank skipped h
    split
    next => exact stays (byteLength_le_of_cons here)
    next => exact .after 1 .expectedColon here

theorem inside_readMember {text : List Char} (h : byteLength text ≤ n) :
    Inside n (outcome (readMember item text)) := by
  cases text with
  | nil => exact .atEnd .endInValue
  | cons c rest =>
    rw [outcome_readMember_cons]
    split
    next =>
      exact (inside_readString (byteLength_le_of_cons h)).follow fun _ _ _ h =>
        (inside_readNamed stays h).follow fun _ _ _ h => h
    next => exact .after 1 .keyNotString h

theorem inside_readMoreMembers {text : List Char} (h : byteLength text ≤ n) :
    Inside n (outcome (readMoreMembers item text)) := by
  induction hn : text.length using Nat.strongRecOn generalizing text with
  | ind k ih =>
    rw [outcome_readMoreMembers]
    split
    next => exact .atEnd .endInObject
    next c rest skipped =>
      have shorter := length_le_of_skipBlank skipped
      have here := byteLength_le_of_skipBlank skipped h
      have later := byteLength_le_of_cons here
      have next : byteLength (skipBlank rest) ≤ n := byteLength_le_of_skipBlank rfl later
      rw [List.length_cons] at shorter
      split
      next => exact later
      next =>
        split
        next =>
          split
          next => exact .after 1 .trailingComma next
          next =>
            refine (inside_readMember stays next).follow fun m afterMember hm h => ?_
            have := length_lt_of_outcome hm
            have := length_skipBlank rest
            exact (ih afterMember.length (by omega) h rfl).follow fun _ _ _ h => h
        next => exact .after 1 .expectedCommaOrBrace here

theorem inside_readMembers {text : List Char} (h : byteLength text ≤ n) :
    Inside n (outcome (readMembers item text)) := by
  rw [outcome_readMembers]
  split
  next => exact .atEnd .endInObject
  next skipped =>
    have here := byteLength_le_of_skipBlank skipped h
    split
    next => exact byteLength_le_of_cons here
    next =>
      exact (inside_readMember stays here).follow fun _ _ _ h =>
        (inside_readMoreMembers stays h).follow fun _ _ _ h => h

end Containers

/-! ### Trees -/

theorem inside_insideOutcome {inner : Option ItemReader} {text : List Char} (h : byteLength text ≤ n)
    {inside : ItemReader → Outcome Json}
    (opened : ∀ item, inner = some item → Inside n (inside item)) :
    Inside n (insideOutcome inner text inside) := by
  cases inner with
  | none => exact .after 1 .recursionLimit h
  | some item => exact opened item rfl

theorem inside_readTree {inner : Option ItemReader}
    (stays : ∀ item, inner = some item → StaysInside item) {c : Char} {rest : List Char}
    (h : byteLength (c :: rest) ≤ n) : Inside n (outcome (readTree inner c rest)) := by
  have later := byteLength_le_of_cons h
  rw [outcome_readTree]
  split_ifs
  · exact inside_readWord _ later _
  · exact inside_readWord _ later _
  · exact inside_readWord _ later _
  · exact (inside_readNumber true later).follow fun _ _ _ h => h
  · exact (inside_readNumber false h).follow fun _ _ _ h => h
  · exact (inside_readString later).follow fun _ _ _ h => h
  · exact inside_insideOutcome h fun item opened =>
      (inside_readItems (stays item opened) later).follow fun _ _ _ h => h
  · exact inside_insideOutcome h fun item opened =>
      (inside_readMembers (stays item opened) later).follow fun _ _ _ h => h
  · exact .after 1 .expectedValue h

theorem staysInside_readItem {inner : Option ItemReader}
    (stays : ∀ item, inner = some item → StaysInside item) : StaysInside (readItem inner) := by
  intro n text h
  rw [outcome_readItem]
  split
  next => exact .atEnd .endInValue
  next skipped => exact inside_readTree stays (byteLength_le_of_skipBlank skipped h)

theorem staysInside_readNested (depth : Nat) : StaysInside (readNested depth) := by
  induction depth with
  | zero => exact staysInside_readItem (by simp)
  | succ depth ih => exact staysInside_readItem fun item h => Option.some.inj h ▸ ih

theorem inside_finish (j : Json) {text : List Char} (h : byteLength text ≤ n) :
    Inside n (finish j text) := by
  rw [finish]
  split
  next => exact Nat.zero_le n
  next skipped => exact .after 1 .trailingCharacters (byteLength_le_of_skipBlank skipped h)

/-- A failure is placed in the text, or at its end. -/
theorem left_le_of_readChars {text : List Char} {e : Failure} (h : readChars text = .error e) :
    e.left ≤ byteLength text := by
  have whole := (staysInside_readNested maxDepth (Nat.le_refl (byteLength text))).follow
    fun j rest _ left => inside_finish j left
  rwa [(readChars_eq_error_iff text e).1 h] at whole

end Untyped.Json
