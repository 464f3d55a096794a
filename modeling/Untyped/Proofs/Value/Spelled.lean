import Mathlib
import Untyped.Proofs.Json.Written
import Untyped.Proofs.Value.Load

/-! The spellings of a text in JSON. Each character has its own, chosen apart from those of its
neighbours; a character beyond four hexadecimal digits is spelled by the halves of its pair. -/
namespace Untyped

namespace Json

/-- A spelling of a character: the character itself, an escape of two characters, its number in four
hexadecimal digits, or the numbers of the two halves of its pair. -/
inductive SpelledAs : Char → List Char → Prop where
  | itself {c : Char} (printable : 0x20 ≤ c.toNat) (noQuote : c ≠ '"') (noBackslash : c ≠ '\\') :
      SpelledAs c [c]
  | short (e : ShortEscape) : SpelledAs e.char ['\\', e.letter]
  | number {c : Char} {x y z w : HexDigit} (number : HexDigit.number x y z w = c.toNat) :
      SpelledAs c ['\\', 'u', x.char, y.char, z.char, w.char]
  | halves {c : Char} {x y z w x' y' z' w' : HexDigit} (beyond : 0x10000 ≤ c.toNat)
      (high : HexDigit.number x y z w = 0xD800 + (c.toNat - 0x10000) / 0x400)
      (low : HexDigit.number x' y' z' w' = 0xDC00 + (c.toNat - 0x10000) % 0x400) :
      SpelledAs c (['\\', 'u', x.char, y.char, z.char, w.char] ++
        ['\\', 'u', x'.char, y'.char, z'.char, w'.char])

theorem not_half (c : Char) : isHighSurrogate c.toNat = false ∧ isLowSurrogate c.toNat = false := by
  have valid : c.toNat < 0xD800 ∨ (0xDFFF < c.toNat ∧ c.toNat < 0x110000) := c.valid
  simp only [isHighSurrogate, isLowSurrogate, Bool.and_eq_false_iff, decide_eq_false_iff_not]
  omega

theorem char?_unit {c : Char} {x y z w : HexDigit} (h : HexDigit.number x y z w = c.toNat) :
    (Piece.unit x y z w).char? = some c := by
  obtain ⟨notHigh, notLow⟩ := not_half c
  simp [Piece.char?, h, notHigh, notLow]

theorem pairedChar_halves {c : Char} (beyond : 0x10000 ≤ c.toNat) :
    let high := 0xD800 + (c.toNat - 0x10000) / 0x400
    let low := 0xDC00 + (c.toNat - 0x10000) % 0x400
    isHighSurrogate high = true ∧ isLowSurrogate low = true ∧ pairedChar high low = c := by
  intro high low
  have valid : c.toNat < 0xD800 ∨ (0xDFFF < c.toNat ∧ c.toNat < 0x110000) := c.valid
  refine ⟨?_, ?_, ?_⟩
  · simp only [isHighSurrogate, Bool.and_eq_true, decide_eq_true_eq]
    omega
  · simp only [isLowSurrogate, Bool.and_eq_true, decide_eq_true_eq]
    omega
  · have number : 0x10000 + (high - 0xD800) * 0x400 + (low - 0xDC00) = c.toNat := by omega
    rw [pairedChar, number, Char.ofNat_toNat]

example : pairedChar 0xD83D 0xDE00 = '😀' := by decide

/-- The pieces of a spelling decode to its character, whatever is decoded after them. -/
theorem SpelledAs.exists_pieces {c : Char} {text : List Char} (h : SpelledAs c text) :
    ∃ pieces : List Piece, pieces.flatMap Piece.text = text ∧
      ∀ later cs, decode? later = some cs → decode? (pieces ++ later) = some (c :: cs) := by
  cases h with
  | itself printable noQuote noBackslash =>
    exact ⟨[.plain c ⟨printable, noQuote, noBackslash⟩], rfl,
      fun _ _ decoded => decode?_cons_of_char? rfl decoded⟩
  | short e => exact ⟨[.short e], rfl, fun _ _ decoded => decode?_cons_of_char? rfl decoded⟩
  | @number _ x y z w number =>
    exact ⟨[.unit x y z w], by simp [Piece.text],
      fun _ _ decoded => decode?_cons_of_char? (char?_unit number) decoded⟩
  | @halves _ x y z w x' y' z' w' beyond high low =>
    obtain ⟨isHigh, isLow, char⟩ := pairedChar_halves beyond
    have paired : (Piece.unit x y z w).paired? (.unit x' y' z' w') = some c := by
      simp [Piece.paired?, Piece.unit?, high, low, isHigh, isLow, char]
    exact ⟨[.unit x y z w, .unit x' y' z' w'], by simp [Piece.text],
      fun _ _ decoded => decode?_cons_of_paired? paired decoded⟩

theorem exists_pieces_of_spelled {cs : List Char} {spelled : List (List Char)}
    (h : List.Forall₂ SpelledAs cs spelled) :
    ∃ pieces : List Piece, pieces.flatMap Piece.text = spelled.flatten ∧
      decode? pieces = some cs := by
  induction h with
  | nil => exact ⟨[], rfl, rfl⟩
  | cons first _ ih =>
    obtain ⟨later, laterText, decoded⟩ := ih
    obtain ⟨pieces, text, decodes⟩ := first.exists_pieces
    exact ⟨pieces ++ later, by simp [text, laterText], decodes later _ decoded⟩

theorem HexDigit.number_lt (x y z w : HexDigit) : HexDigit.number x y z w < 0x10000 := by
  have := x.value.isLt
  have := y.value.isLt
  have := z.value.isLt
  have := w.value.isLt
  rw [HexDigit.number]
  omega

theorem spelledAs_of_char? {p : Piece} {c : Char} (h : p.char? = some c) : SpelledAs c p.text := by
  cases p with
  | plain d allowed =>
    obtain rfl := Option.some.inj h
    exact .itself allowed.1 allowed.2.1 allowed.2.2
  | short e =>
    obtain rfl := Option.some.inj h
    exact .short e
  | unit x y z w =>
    have bound := HexDigit.number_lt x y z w
    rw [Piece.char?] at h
    split at h
    next => cases h
    next single =>
      obtain rfl := Option.some.inj h
      have valid : (HexDigit.number x y z w).isValidChar := by
        simp only [isHighSurrogate, isLowSurrogate, Bool.or_eq_true, Bool.and_eq_true,
          decide_eq_true_eq] at single
        rw [Nat.isValidChar]
        omega
      exact .number (by rw [Char.toNat_ofNat, if_pos valid])

theorem spelledAs_of_paired? {p q : Piece} {c : Char} (h : p.paired? q = some c) :
    SpelledAs c (p.text ++ q.text) := by
  cases p with
  | plain _ _ => cases h
  | short _ => cases h
  | unit x y z w =>
    cases q with
    | plain _ _ => cases h
    | short _ => cases h
    | unit x' y' z' w' =>
      simp only [Piece.paired?, Piece.unit?] at h
      split at h
      next halves =>
        obtain rfl := Option.some.inj h
        simp only [isHighSurrogate, isLowSurrogate, Bool.and_eq_true, decide_eq_true_eq] at halves
        have number : (pairedChar (HexDigit.number x y z w) (HexDigit.number x' y' z' w')).toNat =
            0x10000 + (HexDigit.number x y z w - 0xD800) * 0x400 +
              (HexDigit.number x' y' z' w' - 0xDC00) := by
          rw [pairedChar, Char.toNat_ofNat, if_pos]
          rw [Nat.isValidChar]
          omega
        exact .halves (by omega) (by omega) (by omega)
      next => cases h

theorem exists_spelled {pieces : List Piece} {cs : List Char} (h : decode? pieces = some cs) :
    ∃ spelled, List.Forall₂ SpelledAs cs spelled ∧
      pieces.flatMap Piece.text = spelled.flatten := by
  fun_induction decode? pieces generalizing cs with
  | case1 =>
    cases h
    exact ⟨[], .nil, rfl⟩
  | case2 p later c hc ih =>
    obtain ⟨ds, hd, rfl⟩ := Option.map_eq_some_iff.1 h
    obtain ⟨spelled, each, text⟩ := ih hd
    exact ⟨p.text :: spelled, .cons (spelledAs_of_char? hc) each, by simp [text]⟩
  | case3 => cases h
  | case4 p hp q later ih =>
    obtain ⟨c, hc, h⟩ := Option.bind_eq_some_iff.1 h
    obtain ⟨ds, hd, rfl⟩ := Option.map_eq_some_iff.1 h
    obtain ⟨spelled, each, text⟩ := ih hd
    exact ⟨(p.text ++ q.text) :: spelled, .cons (spelledAs_of_paired? hc) each, by simp [text]⟩

theorem raw_of_toValue_eq_text {j : Json} {identity : Nat} {s : String}
    (h : j.toValue identity = .text s) : j.raw = .string s := by
  obtain ⟨raw, ordered⟩ := j
  cases raw with
  | null => cases h
  | bool b => cases h
  | number n =>
    cases n with
    | integer k inRange =>
      change (Number.integer k inRange).toValue = _ at h
      rw [Number.toValue] at h
      split at h <;> cases h
    | float x => cases h
  | string s' =>
    obtain rfl := Value.text.inj h
    rfl
  | array items => cases h
  | object members => cases h

theorem Element.exists_string {e : Element} {j : Json} {s : String} (tree : e.tree? = some j)
    (raw : j.raw = .string s) :
    ∃ before pieces after, e = .scalar before (.string pieces) after ∧
      decode? pieces = some s.toList := by
  cases e with
  | scalar before value after =>
    rw [tree?_scalar] at tree
    cases value with
    | null => cases tree; cases raw
    | bool b => cases tree; cases raw
    | number t =>
      obtain ⟨n, _, rfl⟩ := Option.map_eq_some_iff.1 tree
      cases raw
    | string pieces =>
      obtain ⟨cs, decoded, rfl⟩ := Option.map_eq_some_iff.1 tree
      obtain rfl := Raw.string.inj raw
      exact ⟨before, pieces, after, rfl, by rw [decoded, String.toList_ofList]⟩
  | array before gap items after =>
    rw [tree?_array] at tree
    obtain ⟨js, _, rfl⟩ := Option.map_eq_some_iff.1 tree
    cases raw
  | object before gap members after =>
    rw [tree?_object] at tree
    obtain ⟨ms, _, rfl⟩ := Option.map_eq_some_iff.1 tree
    cases raw

end Json

open Json (Blank SpelledAs)

/-- What loads as a text is, blanks around it apart, a spelling of each of its characters between
quotes, and every choice of spellings does. What is written for a text is one of these choices. -/
theorem loadValue_spelled_iff (identity : Nat) (s text : String) :
    (loadValue identity text = .ok (.text s) ↔
      ∃ (before after : Blank) (spelled : List (List Char)),
        List.Forall₂ SpelledAs s.toList spelled ∧
          text.toList = before.chars ++ '"' :: (spelled.flatten ++ '"' :: after.chars)) ∧
    ∃ spelled, List.Forall₂ SpelledAs s.toList spelled ∧
      (Value.text s).toJson.compact.toList = '"' :: (spelled.flatten ++ ['"']) := by
  refine ⟨⟨fun loads => ?_, ?_⟩, ?_⟩
  · obtain ⟨j, loaded, value⟩ := (loadValue_eq_ok_iff identity text _).1 loads
    obtain ⟨e, derived, _, tree⟩ := (loadJson_eq_ok_iff text j).1 loaded
    obtain ⟨before, pieces, after, rfl, decoded⟩ :=
      Json.Element.exists_string tree (Json.raw_of_toValue_eq_text value.symm)
    obtain ⟨spelled, each, flat⟩ := Json.exists_spelled decoded
    refine ⟨before, after, spelled, each, ?_⟩
    rw [← derived, Json.Element.text_scalar, Json.Scalar.text, flat]
    simp
  · rintro ⟨before, after, spelled, each, chars⟩
    obtain ⟨pieces, flat, decoded⟩ := Json.exists_pieces_of_spelled each
    have derived : (Json.Element.scalar before (.string pieces) after).text = text.toList := by
      rw [Json.Element.text_scalar, Json.Scalar.text, chars, flat]
      simp
    have tree : (Json.Element.scalar before (.string pieces) after).tree? = some (.string s) := by
      rw [Json.Element.tree?_scalar, Json.Scalar.tree?, decoded, Option.map_some,
        String.ofList_toList]
    exact loadValue_of_derived derived (Nat.zero_le _) tree identity
  · obtain ⟨pieces, written, decoded⟩ := Json.exists_written_name s
    obtain ⟨spelled, each, flat⟩ := Json.exists_spelled decoded
    refine ⟨spelled, each, ?_⟩
    rw [← flat]
    exact String.toList_ofList.trans written.symm

end Untyped
