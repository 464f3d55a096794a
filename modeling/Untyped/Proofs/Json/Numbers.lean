import Mathlib
import Untyped.Proofs.Json.Grammar
import Untyped.Proofs.Json.Outcome

/-! A number is read exactly as it is written, up to the first character that cannot go on it; and
the value of what is read is the number that is meant. -/
namespace Untyped

namespace Digit

theorem toChar_of_ofChar? {c : Char} {d : Digit} (h : ofChar? c = some d) : d.toChar = c := by
  unfold ofChar? at h
  split at h
  next hc =>
    cases h
    have hz : '0'.toNat = 48 := rfl
    rw [toChar, show '0'.toNat + (c.toNat - '0'.toNat) = c.toNat by omega, Char.ofNat_toNat]
  next => cases h

def Stops (text : List Char) : Prop := ∀ c ∈ text.head?, ofChar? c = none

theorem span_chars (ds : List Digit) {rest : List Char} (h : Stops rest) :
    span (chars ds ++ rest) = (ds, rest) := by
  induction ds with
  | nil =>
    cases rest with
    | nil => rfl
    | cons c rest =>
      have hc := h c rfl
      rw [chars, List.map_nil, List.nil_append, span]
      simp only [hc]
  | cons d ds ih =>
    rw [chars, List.map_cons, List.cons_append, span]
    simp only [ofChar?_toChar]
    rw [← chars, ih]

theorem chars_span (text : List Char) : chars (span text).1 ++ (span text).2 = text := by
  induction text with
  | nil => rfl
  | cons c text ih =>
    rw [span]
    split
    next d hd =>
      show d.toChar :: (chars (span text).1 ++ (span text).2) = c :: text
      rw [ih, toChar_of_ofChar? hd]
    next => rfl

theorem chars_eq_of_span {text rest : List Char} {ds : List Digit} (h : span text = (ds, rest)) :
    text = chars ds ++ rest := by
  rw [← chars_span text, h]

theorem ofChar?_of_ne (d : Digit) {c : Char} (h : ofChar? c = none) : d.toChar ≠ c := by
  intro hd
  rw [← hd, ofChar?_toChar] at h
  cases h

end Digit

namespace Json

/-- The text does not start with a character that could go on a number. -/
def Ends (text : List Char) : Prop :=
  Digit.Stops text ∧ ∀ c ∈ text.head?, c ≠ '.' ∧ c ≠ 'e' ∧ c ≠ 'E'

theorem ends_nil : Ends [] := ⟨fun _ h => absurd h (by simp), fun _ h => absurd h (by simp)⟩

/-! ### From tokens to readings -/

theorem outcome_readWhole_chars (leading : Digit) (later : List Digit)
    (lone : leading = 0 → later = []) {rest : List Char} (h : Digit.Stops rest) :
    outcome (readWhole (Digit.chars (leading :: later) ++ rest)) =
      .ok (leading :: later, rest) := by
  rw [Digit.chars, List.map_cons, List.cons_append, outcome_readWhole_cons, ← Digit.chars]
  simp only [Digit.ofChar?_toChar, Digit.span_chars later h]
  split
  next zero => rw [lone zero, if_pos rfl, Digit.chars, List.map_nil, List.nil_append]
  next => rfl

theorem readFraction_chars (ds : List Digit) {rest : List Char} (stops : Digit.Stops rest)
    (noPoint : ds = [] → ∀ c ∈ rest.head?, c ≠ '.') :
    readFraction (NumberToken.fractionText ds ++ rest) = .ok (ds, rest) := by
  cases ds with
  | nil =>
    rw [NumberToken.fractionText, if_pos rfl, List.nil_append]
    unfold readFraction
    split
    next => exact absurd rfl (noPoint rfl '.' rfl)
    next => rfl
  | cons d ds =>
    rw [NumberToken.fractionText, if_neg (List.cons_ne_nil d ds), List.cons_append, readFraction,
      Digit.span_chars (d :: ds) stops]

theorem readSign_sign (sign : Option Bool) {digits : List Digit} (hd : digits ≠ [])
    (rest : List Char) :
    readSign (signText sign ++ (Digit.chars digits ++ rest)) =
      (decide (sign = some true), Digit.chars digits ++ rest) := by
  obtain ⟨d, ds, rfl⟩ := List.exists_cons_of_ne_nil hd
  cases sign with
  | none =>
    show readSign (d.toChar :: (Digit.chars ds ++ rest)) = _
    have plus := Digit.ofChar?_of_ne d (c := '+') (by decide)
    have minus := Digit.ofChar?_of_ne d (c := '-') (by decide)
    unfold readSign
    split
    next h => exact absurd (List.cons.inj h).1 plus
    next h => exact absurd (List.cons.inj h).1 minus
    next => rfl
  | some negative => cases negative <;> rfl

theorem readExponent_text (e : Option Exponent) {rest : List Char} (stops : Digit.Stops rest)
    (noLetter : e = none → ∀ c ∈ rest.head?, c ≠ 'e' ∧ c ≠ 'E') :
    readExponent (e.elim [] Exponent.text ++ rest) =
      .ok (e.map fun e => (decide (e.sign = some true), e.digits), rest) := by
  cases e with
  | none =>
    rw [Option.elim_none, List.nil_append]
    cases rest with
    | nil => rfl
    | cons c rest =>
      obtain ⟨lower, upper⟩ := noLetter rfl c rfl
      rw [readExponent, if_neg (by simp [lower, upper])]
      rfl
  | some e =>
    have letter : (if e.upper then 'E' else 'e') = 'e' ∨ (if e.upper then 'E' else 'e') = 'E' := by
      cases e.upper <;> simp
    obtain ⟨d, ds, hd⟩ := List.exists_cons_of_ne_nil e.nonempty
    rw [Option.elim_some, Exponent.text, List.cons_append, readExponent, if_pos letter,
      List.append_assoc, readSign_sign e.sign e.nonempty, Digit.span_chars e.digits stops,
      Option.map_some, hd]

theorem exponent_head (e : Exponent) (rest : List Char) :
    ∀ c ∈ (e.text ++ rest).head?, c = 'E' ∨ c = 'e' := by
  intro c hc
  rw [Exponent.text, List.cons_append, List.head?_cons] at hc
  cases hc
  cases e.upper <;> simp

theorem stops_exponent (e : Option Exponent) {rest : List Char} (h : Digit.Stops rest) :
    Digit.Stops (e.elim [] Exponent.text ++ rest) := by
  cases e with
  | none => exact h
  | some e =>
    intro c hc
    obtain rfl | rfl := exponent_head e rest c hc <;> rfl

theorem stops_fraction (ds : List Digit) {rest : List Char} (h : Digit.Stops rest) :
    Digit.Stops (NumberToken.fractionText ds ++ rest) := by
  unfold NumberToken.fractionText
  split
  next => exact h
  next =>
    intro c hc
    cases hc
    rfl

/-- A number is read as it is written, where the text after it cannot go on it. -/
theorem outcome_readNumeral_token (t : NumberToken) {rest : List Char} (h : Ends rest) :
    outcome (readNumeral t.negative (t.unsigned ++ rest)) = .ok (t.numeral, rest) := by
  have stops := stops_exponent t.exponent h.1
  have noPoint : ∀ c ∈ (t.exponent.elim [] Exponent.text ++ rest).head?, c ≠ '.' := by
    cases t.exponent with
    | none => exact fun c hc => (h.2 c hc).1
    | some e =>
      intro c hc
      obtain rfl | rfl := exponent_head e rest c hc <;> decide
  rw [outcome_readNumeral, NumberToken.unsigned, List.append_assoc, List.append_assoc,
    outcome_readWhole_chars t.leading t.later t.lone_zero (stops_fraction t.fraction stops),
    follow_ok, readFraction_chars t.fraction stops fun _ => noPoint, follow_ok,
    readExponent_text t.exponent h.1 fun _ c hc => (h.2 c hc).2]
  rfl

/-! ### From readings to tokens -/

theorem exists_whole {text rest : List Char} {whole : List Digit}
    (h : outcome (readWhole text) = .ok (whole, rest)) :
    ∃ leading later, whole = leading :: later ∧ (leading = 0 → later = []) ∧
      text = Digit.chars (leading :: later) ++ rest := by
  cases text with
  | nil => cases h
  | cons c text =>
    rw [outcome_readWhole_cons] at h
    split at h
    next => cases h
    next first hfirst =>
      have hc := Digit.toChar_of_ofChar? hfirst
      split at h
      next =>
        split at h
        next =>
          cases h
          exact ⟨first, [], rfl, fun _ => rfl, by rw [← hc]; rfl⟩
        next => cases h
      next nonzero =>
        cases h
        refine ⟨first, _, rfl, fun zero => absurd zero nonzero, ?_⟩
        rw [Digit.chars, List.map_cons, List.cons_append, hc, ← Digit.chars, Digit.chars_span]

theorem eq_of_readFraction {text rest : List Char} {ds : List Digit}
    (h : readFraction text = .ok (ds, rest)) : text = NumberToken.fractionText ds ++ rest := by
  unfold readFraction at h
  split at h
  next text =>
    split at h
    next => cases h
    next => cases h
    next hs =>
      cases h
      rw [Digit.chars_eq_of_span hs, NumberToken.fractionText, if_neg (List.cons_ne_nil _ _)]
      rfl
  next =>
    cases h
    rfl

theorem exists_sign (text : List Char) :
    ∃ sign, text = signText sign ++ (readSign text).2 ∧
      (readSign text).1 = decide (sign = some true) := by
  unfold readSign
  split
  next => exact ⟨some false, rfl, rfl⟩
  next => exact ⟨some true, rfl, rfl⟩
  next => exact ⟨none, rfl, rfl⟩

theorem exists_exponent {text rest : List Char} {parts : Option (Bool × List Digit)}
    (h : readExponent text = .ok (parts, rest)) :
    ∃ e : Option Exponent, text = e.elim [] Exponent.text ++ rest ∧
      parts = e.map fun e => (decide (e.sign = some true), e.digits) := by
  cases text with
  | nil =>
    cases h
    exact ⟨none, rfl, rfl⟩
  | cons c text =>
    rw [readExponent] at h
    split at h
    next letter =>
      split at h
      next => cases h
      next => cases h
      next d ds _ hs =>
        cases h
        obtain ⟨sign, hsign, hnegative⟩ := exists_sign text
        refine ⟨some ⟨decide (c = 'E'), sign, d :: ds, List.cons_ne_nil d ds⟩, ?_, ?_⟩
        · have hc : (if decide (c = 'E') then 'E' else 'e') = c := by
            obtain rfl | rfl := letter <;> rfl
          rw [Option.elim_some, Exponent.text, List.cons_append, hc, List.append_assoc,
            ← Digit.chars_eq_of_span hs, ← hsign]
        · rw [hnegative]
          rfl
    next =>
      cases h
      exact ⟨none, rfl, rfl⟩

theorem exists_token {negative : Bool} {text rest : List Char} {n : Numeral}
    (h : outcome (readNumeral negative text) = .ok (n, rest)) :
    ∃ t : NumberToken, t.negative = negative ∧ text = t.unsigned ++ rest ∧ n = t.numeral := by
  rw [outcome_readNumeral] at h
  obtain ⟨whole, afterWhole, hwhole, h⟩ := follow_eq_ok.1 h
  obtain ⟨fraction, afterFraction, hfraction, h⟩ := follow_eq_ok.1 h
  obtain ⟨exponent, afterExponent, hexponent, h⟩ := follow_eq_ok.1 h
  cases h
  obtain ⟨leading, later, rfl, lone, rfl⟩ := exists_whole hwhole
  obtain rfl := eq_of_readFraction hfraction
  obtain ⟨e, rfl, rfl⟩ := exists_exponent hexponent
  exact ⟨⟨negative, leading, later, lone, fraction, e⟩, rfl,
    by simp only [NumberToken.unsigned, List.append_assoc], rfl⟩

/-! ### Values -/

theorem le_append (acc : Nat) (ds : List Digit) : acc ≤ Digit.append acc ds := by
  induction ds generalizing acc with
  | nil => exact Nat.le_refl _
  | cons d ds ih =>
    have h := ih (acc * 10 + d.val)
    show acc ≤ Digit.append (acc * 10 + d.val) ds
    omega

namespace Numeral

theorem gather_of_lt {acc : Nat} {ds : List Digit} (h : Digit.append acc ds < 0x10000000000000000) :
    gather acc ds = (Digit.append acc ds, []) := by
  induction ds generalizing acc with
  | nil => rfl
  | cons d ds ih =>
    have next_lt := Nat.lt_of_le_of_lt (le_append (acc * 10 + d.val) ds) h
    rw [gather, if_pos next_lt]
    exact ih h

theorem gather_of_le {acc : Nat} {ds : List Digit} (fits : acc < 0x10000000000000000)
    (h : 0x10000000000000000 ≤ Digit.append acc ds) : (gather acc ds).2 ≠ [] := by
  induction ds generalizing acc with
  | nil => exact absurd fits (Nat.not_lt.2 h)
  | cons d ds ih =>
    rw [gather]
    split
    next next_lt => exact ih next_lt h
    next => exact List.cons_ne_nil d ds

end Numeral

theorem Number.ofInt?_of_natAbs {i : Int} (h : 0x10000000000000000 ≤ i.natAbs) :
    Number.ofInt? i = none := by
  rw [Number.ofInt?, dif_neg]
  omega

namespace NumberToken

theorem toInteger?_numeral (t : NumberToken) :
    t.numeral.toInteger? = t.integer?.bind Number.ofInt? := by
  have hexp : t.numeral.exponent = none ↔ t.exponent.isNone := by simp [numeral]
  by_cases plain : t.fraction = [] ∧ t.exponent.isNone
  · have hi : t.integer? =
        if t.negative then
          if Digit.toNat (t.leading :: t.later) = 0 then none
          else some (-(Digit.toNat (t.leading :: t.later) : Int))
        else some (Digit.toNat (t.leading :: t.later) : Int) := if_pos plain
    rw [hi]
    obtain fits | large := Nat.lt_or_ge (Digit.toNat (t.leading :: t.later)) 0x10000000000000000
    · have hw : t.numeral.wholePart = (Digit.toNat (t.leading :: t.later), []) :=
        Numeral.gather_of_lt fits
      have kept : ¬(t.numeral.fraction ≠ [] ∨ t.numeral.exponent ≠ none ∨ ([] : List Digit) ≠ []) := by
        rintro (hf | he | hd)
        · exact hf plain.1
        · exact he (hexp.2 plain.2)
        · exact hd rfl
      rw [Numeral.toInteger?, hw]
      dsimp only
      rw [if_neg kept]
      by_cases hn : t.negative
      · have hm : t.numeral.negative = true := hn
        rw [if_pos hm, if_pos hn]
        split
        next => rw [Option.bind_none]
        next => rw [Option.bind_some]
      · have hm : ¬t.numeral.negative = true := hn
        rw [if_neg hm, if_neg hn, Option.bind_some]
    -- a digit that is not taken sends the literal to the doubles, and 64 bits do not hold it
    · have dropped : t.numeral.wholePart.2 ≠ [] := Numeral.gather_of_le (by decide) large
      have toLarge (i : Int) (hi : i.natAbs = Digit.toNat (t.leading :: t.later)) :
          Number.ofInt? i = none := Number.ofInt?_of_natAbs (by rwa [hi])
      rw [Numeral.toInteger?]
      simp only [dropped, ne_eq, not_false_eq_true, or_true, if_true]
      split
      next =>
        split
        next => rw [Option.bind_none]
        next => rw [Option.bind_some, toLarge _ (by rw [Int.natAbs_neg, Int.natAbs_natCast])]
      next => rw [Option.bind_some, toLarge _ (Int.natAbs_natCast _)]
  -- a fraction or an exponent does so in any case
  · have hi : t.integer? = none := if_neg plain
    have rounded : t.numeral.fraction ≠ [] ∨ t.numeral.exponent ≠ none ∨
        t.numeral.wholePart.2 ≠ [] := by
      by_cases hf : t.fraction = []
      · exact .inr (.inl fun he => plain ⟨hf, hexp.1 he⟩)
      · exact .inl hf
    rw [Numeral.toInteger?, hi, Option.bind_none]
    simp only [rounded, if_true]

/-- A literal is converted to the number that is meant. -/
theorem toOption_toNumber (t : NumberToken) : t.numeral.toNumber.toOption = t.number? := by
  rw [Numeral.toNumber, number?, toInteger?_numeral]
  cases t.integer?.bind Number.ofInt? <;> rfl

theorem toNumber_eq_ok_iff (t : NumberToken) (n : Number) :
    t.numeral.toNumber = .ok n ↔ t.number? = some n := by
  rw [← toOption_toNumber]
  cases t.numeral.toNumber with
  | error _ => simp [Except.toOption]
  | ok _ => simp [Except.toOption]

end NumberToken

theorem outcome_readNumber_token (t : NumberToken) {n : Number} (hn : t.number? = some n)
    {rest : List Char} (h : Ends rest) :
    outcome (readNumber t.negative (t.unsigned ++ rest)) = .ok (n, rest) := by
  rw [outcome_readNumber, outcome_readNumeral_token t h, follow_ok,
    (t.toNumber_eq_ok_iff n).2 hn]

theorem exists_number_token {negative : Bool} {text rest : List Char} {n : Number}
    (h : outcome (readNumber negative text) = .ok (n, rest)) :
    ∃ t : NumberToken, t.negative = negative ∧ text = t.unsigned ++ rest ∧ t.number? = some n := by
  rw [outcome_readNumber] at h
  obtain ⟨numeral, afterNumeral, hnumeral, h⟩ := follow_eq_ok.1 h
  obtain ⟨t, hnegative, htext, rfl⟩ := exists_token hnumeral
  split at h
  next hn =>
    cases h
    exact ⟨t, hnegative, htext, (t.toNumber_eq_ok_iff _).1 hn⟩
  next => cases h

end Json

end Untyped
