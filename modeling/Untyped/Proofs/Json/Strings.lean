import Mathlib
import Untyped.Proofs.Json.Grammar
import Untyped.Proofs.Json.Outcome

/-! A string is read exactly as its pieces decode. -/
namespace Untyped.Json

theorem hexValue?_char (h : HexDigit) : hexValue? h.char = some h.value.val := by
  obtain ⟨value, upper⟩ := h
  revert value upper
  decide

theorem ascii_of_hexValue? {c : Char} {n : Nat} (h : hexValue? c = some n) : c.toNat < 128 := by
  have hle (limit : Char) (hl : limit.toNat < 128) (hc : c ≤ limit) : c.toNat < 128 :=
    Nat.lt_of_le_of_lt hc hl
  unfold hexValue? at h
  split at h
  next hc => exact hle '9' (by decide) hc.2
  next =>
    split at h
    next hc => exact hle 'f' (by decide) hc.2
    next =>
      split at h
      next hc => exact hle 'F' (by decide) hc.2
      next => cases h

theorem exists_hexDigit {c : Char} {n : Nat} (h : hexValue? c = some n) :
    ∃ d : HexDigit, d.char = c ∧ d.value.val = n := by
  -- among the first 128 characters the digit is found by looking at each of them
  have found : ∀ code < 128, ∀ k < 16, hexValue? (Char.ofNat code) = some k →
      ∃ upper, (HexDigit.mk (Fin.ofNat 16 k) upper).char = Char.ofNat code := by decide
  have small : ∀ code < 128, ∀ k ∈ hexValue? (Char.ofNat code), k < 16 := by decide
  have hc := ascii_of_hexValue? h
  rw [← Char.ofNat_toNat c] at h
  have hn := small c.toNat hc n h
  obtain ⟨upper, hd⟩ := found c.toNat hc n hn h
  exact ⟨⟨Fin.ofNat 16 n, upper⟩, hd.trans (Char.ofNat_toNat c), Nat.mod_eq_of_lt hn⟩

theorem outcome_readHex (a b c d : HexDigit) (rest : List Char) :
    outcome (readHex (a.char :: b.char :: c.char :: d.char :: rest)) =
      .ok (HexDigit.number a b c d, rest) := by
  have h : hexNumber? a.char b.char c.char d.char = some (HexDigit.number a b c d) := by
    simp only [hexNumber?, hexValue?_char, HexDigit.number]
  rw [readHex]
  simp only [h]
  rfl

theorem exists_hexDigits {text rest : List Char} {n : Nat}
    (h : outcome (readHex text) = .ok (n, rest)) :
    ∃ a b c d : HexDigit, text = a.char :: b.char :: c.char :: d.char :: rest ∧
      n = HexDigit.number a b c d := by
  unfold readHex at h
  split at h
  next a b c d rest' =>
    split at h
    next k hk =>
      cases h
      unfold hexNumber? at hk
      split at hk
      next ha hb hc hd =>
        cases hk
        obtain ⟨a, rfl, rfl⟩ := exists_hexDigit ha
        obtain ⟨b, rfl, rfl⟩ := exists_hexDigit hb
        obtain ⟨c, rfl, rfl⟩ := exists_hexDigit hc
        obtain ⟨d, rfl, rfl⟩ := exists_hexDigit hd
        exact ⟨a, b, c, d, rfl, rfl⟩
      next => cases hk
    next => cases h
  next => split at h <;> cases h

theorem escaped?_letter (e : ShortEscape) : escaped? e.letter = some e.char := by
  cases e <;> rfl

theorem exists_shortEscape {c e : Char} (h : escaped? c = some e) :
    ∃ s : ShortEscape, s.letter = c ∧ s.char = e := by
  unfold escaped? at h
  split at h
  next => cases h; exact ⟨.quote, rfl, rfl⟩
  next => cases h; exact ⟨.backslash, rfl, rfl⟩
  next => cases h; exact ⟨.slash, rfl, rfl⟩
  next => cases h; exact ⟨.backspace, rfl, rfl⟩
  next => cases h; exact ⟨.formFeed, rfl, rfl⟩
  next => cases h; exact ⟨.newline, rfl, rfl⟩
  next => cases h; exact ⟨.carriageReturn, rfl, rfl⟩
  next => cases h; exact ⟨.tab, rfl, rfl⟩
  next => cases h

theorem outcome_readString_escape (rest : List Char) :
    outcome (readString ('\\' :: rest)) =
      follow (outcome (readEscape rest)) fun e afterEscape =>
      follow (outcome (readString afterEscape)) fun cs rest => .ok (e :: cs, rest) := by
  rw [outcome_readString_cons, if_neg (by decide), if_neg (by decide), if_pos rfl]

theorem outcome_readString_piece {p : Piece} {c : Char} (h : p.char? = some c) (rest : List Char) :
    outcome (readString (p.text ++ rest)) =
      follow (outcome (readString rest)) fun cs rest => .ok (c :: cs, rest) := by
  cases p with
  | plain d allowed =>
    cases h
    obtain ⟨printable, noQuote, noBackslash⟩ := allowed
    rw [Piece.text, List.singleton_append, outcome_readString_cons, if_neg noQuote,
      if_neg (Nat.not_lt.2 printable), if_neg noBackslash]
  | short e =>
    cases h
    have hu : e.letter ≠ 'u' := by cases e <;> decide
    rw [Piece.text, List.cons_append, outcome_readString_escape, List.singleton_append,
      outcome_readEscape_cons, if_neg hu, escaped?_letter]
    rfl
  | unit a b c d =>
    rw [Piece.char?] at h
    split at h
    next => cases h
    next single =>
      cases h
      obtain ⟨notHigh, notLow⟩ := Bool.or_eq_false_iff.1 (Bool.eq_false_iff.2 single)
      rw [Piece.text, List.cons_append, outcome_readString_escape, List.cons_append,
        outcome_readEscape_cons, if_pos rfl, outcome_readUnicode]
      simp only [List.cons_append, List.nil_append, outcome_readHex, follow_ok, notHigh, notLow,
        Bool.false_eq_true, if_false]

theorem outcome_readString_pair {p q : Piece} {c : Char} (h : p.paired? q = some c)
    (rest : List Char) :
    outcome (readString (p.text ++ (q.text ++ rest))) =
      follow (outcome (readString rest)) fun cs rest => .ok (c :: cs, rest) := by
  cases p with
  | plain _ _ => cases h
  | short _ => cases h
  | unit a b c d =>
    cases q with
    | plain _ _ => cases h
    | short _ => cases h
    | unit a' b' c' d' =>
      rw [Piece.paired?, Piece.unit?, Piece.unit?] at h
      dsimp only at h
      split at h
      next halves =>
        obtain rfl := Option.some.inj h
        obtain ⟨high, low⟩ := Bool.and_eq_true_iff.1 halves
        have notLow : isLowSurrogate (HexDigit.number a b c d) = false := by
          simp only [isHighSurrogate, isLowSurrogate, Bool.and_eq_true, decide_eq_true_eq,
            Bool.and_eq_false_iff, decide_eq_false_iff_not] at high ⊢
          omega
        rw [Piece.text, List.cons_append, outcome_readString_escape, List.cons_append,
          outcome_readEscape_cons, if_pos rfl, outcome_readUnicode]
        simp only [List.cons_append, List.nil_append, outcome_readHex, follow_ok, notLow, high,
          Bool.false_eq_true, if_false, if_true, Piece.text, outcome_readLowSurrogate,
          outcome_readPairing_cons, low]
      next => cases h

/-- A string whose pieces decode is read as the characters that they decode to. -/
theorem outcome_readString_pieces (pieces : List Piece) {cs : List Char}
    (h : decode? pieces = some cs) (rest : List Char) :
    outcome (readString (pieces.flatMap Piece.text ++ '"' :: rest)) = .ok (cs, rest) := by
  fun_induction decode? pieces generalizing cs with
  | case1 =>
    cases h
    rw [List.flatMap_nil, List.nil_append, outcome_readString_cons, if_pos rfl]
  | case2 p later c hc ih =>
    obtain ⟨ds, hd, rfl⟩ := Option.map_eq_some_iff.1 h
    rw [List.flatMap_cons, List.append_assoc, outcome_readString_piece hc, ih hd]
    rfl
  | case3 => cases h
  | case4 p hp q later ih =>
    obtain ⟨c, hc, h⟩ := Option.bind_eq_some_iff.1 h
    obtain ⟨ds, hd, rfl⟩ := Option.map_eq_some_iff.1 h
    rw [List.flatMap_cons, List.flatMap_cons, List.append_assoc, List.append_assoc,
      outcome_readString_pair hc, ih hd]
    rfl

theorem isSome_char?_iff (p : Piece) : p.char?.isSome ↔ p.isHigh = false ∧ p.isLow = false := by
  cases p with
  | plain _ _ => exact ⟨fun _ => ⟨rfl, rfl⟩, fun _ => rfl⟩
  | short _ => exact ⟨fun _ => ⟨rfl, rfl⟩, fun _ => rfl⟩
  | unit a b c d =>
    simp only [Piece.char?, Piece.isHigh, Piece.isLow, Piece.unit?, Option.any_some]
    split
    next half =>
      refine ⟨fun h => absurd h (by simp), fun h => ?_⟩
      simp [h] at half
    next single =>
      exact ⟨fun _ => Bool.or_eq_false_iff.1 (Bool.eq_false_iff.2 single), fun _ => rfl⟩

theorem isSome_paired?_iff (p q : Piece) :
    (p.paired? q).isSome ↔ p.isHigh = true ∧ q.isLow = true := by
  unfold Piece.paired? Piece.isHigh Piece.isLow
  cases p.unit? with
  | none => simp
  | some high =>
    cases q.unit? with
    | none => simp
    | some low =>
      rw [Option.any_some, Option.any_some, ← Bool.and_eq_true_iff]
      dsimp only
      split
      next halves => simp [halves]
      next halves => simp [halves]

theorem char?_eq_none_of_isHigh {p : Piece} (h : p.isHigh = true) : p.char? = none := by
  rw [← Option.not_isSome_iff_eq_none, isSome_char?_iff]
  simp [h]

theorem decode?_cons_of_char? {p : Piece} {c : Char} (hp : p.char? = some c) {later : List Piece}
    {cs : List Char} (h : decode? later = some cs) : decode? (p :: later) = some (c :: cs) := by
  rw [decode?.eq_def]
  simp only [hp, h, Option.map_some]

theorem decode?_cons_of_paired? {p q : Piece} {c : Char} (hp : p.paired? q = some c)
    {later : List Piece} {cs : List Char} (h : decode? later = some cs) :
    decode? (p :: q :: later) = some (c :: cs) := by
  have high := ((isSome_paired?_iff p q).1 (by rw [hp]; rfl)).1
  rw [decode?.eq_def]
  simp only [char?_eq_none_of_isHigh high, hp, h, Option.bind_some, Option.map_some]

/-- A string decodes exactly if its halves of pairs stand side by side. -/
theorem isSome_decode?_iff (pieces : List Piece) : (decode? pieces).isSome ↔ Paired pieces := by
  constructor
  · intro h
    fun_induction decode? pieces with
    | case1 => exact .nil
    | case2 p later c hc ih =>
      obtain ⟨notHigh, notLow⟩ := (isSome_char?_iff p).1 (by rw [hc]; rfl)
      exact .one notHigh notLow (ih (by simpa using h))
    | case3 => cases h
    | case4 p hp q later ih =>
      obtain ⟨cs, h⟩ := Option.isSome_iff_exists.1 h
      obtain ⟨c, hc, h⟩ := Option.bind_eq_some_iff.1 h
      obtain ⟨ds, hd, _⟩ := Option.map_eq_some_iff.1 h
      obtain ⟨high, low⟩ := (isSome_paired?_iff p q).1 (by rw [hc]; rfl)
      exact .pair high low (ih (by rw [hd]; rfl))
  · intro h
    induction h with
    | nil => rfl
    | @one p later notHigh notLow _ ih =>
      obtain ⟨c, hc⟩ := Option.isSome_iff_exists.1 ((isSome_char?_iff p).2 ⟨notHigh, notLow⟩)
      obtain ⟨cs, hcs⟩ := Option.isSome_iff_exists.1 ih
      rw [decode?_cons_of_char? hc hcs]
      rfl
    | @pair p q later high low _ ih =>
      obtain ⟨c, hc⟩ := Option.isSome_iff_exists.1 ((isSome_paired?_iff p q).2 ⟨high, low⟩)
      obtain ⟨cs, hcs⟩ := Option.isSome_iff_exists.1 ih
      rw [decode?_cons_of_paired? hc hcs]
      rfl

theorem eq_of_outcome_readPairing {expected : Char} {text rest : List Char}
    (h : outcome (readPairing expected text) = .ok ((), rest)) : text = expected :: rest := by
  cases text with
  | nil => cases h
  | cons c later =>
    rw [outcome_readPairing_cons] at h
    split at h
    next hc =>
      cases h
      rw [hc]
    next => cases h

theorem exists_low_unit {text rest : List Char} {n : Nat}
    (h : outcome (readLowSurrogate text) = .ok (n, rest)) :
    ∃ a b c d : HexDigit, text = (Piece.unit a b c d).text ++ rest ∧
      n = HexDigit.number a b c d ∧ isLowSurrogate n = true := by
  rw [outcome_readLowSurrogate] at h
  obtain ⟨_, afterSlash, hslash, h⟩ := follow_eq_ok.1 h
  obtain ⟨_, afterLetter, hletter, h⟩ := follow_eq_ok.1 h
  obtain ⟨low, afterHex, hhex, h⟩ := follow_eq_ok.1 h
  split at h
  next isLow =>
    cases h
    obtain ⟨a, b, c, d, rfl, rfl⟩ := exists_hexDigits hhex
    rw [eq_of_outcome_readPairing hslash, eq_of_outcome_readPairing hletter]
    exact ⟨a, b, c, d, rfl, rfl, isLow⟩
  next => cases h

theorem exists_pieces_of_escape {text rest : List Char} {c : Char}
    (h : outcome (readEscape text) = .ok (c, rest)) :
    ∃ pieces, '\\' :: text = pieces.flatMap Piece.text ++ rest ∧
      ∀ later cs, decode? later = some cs → decode? (pieces ++ later) = some (c :: cs) := by
  cases text with
  | nil => cases h
  | cons letter text =>
    rw [outcome_readEscape_cons] at h
    split at h
    next hu =>
      subst hu
      rw [outcome_readUnicode] at h
      obtain ⟨first, afterFirst, hfirst, h⟩ := follow_eq_ok.1 h
      obtain ⟨x, y, z, w, rfl, rfl⟩ := exists_hexDigits hfirst
      split at h
      next => cases h
      next notLow =>
        split at h
        next high =>
          -- the first half of a pair has to be followed by the second one, an escape of its own
          obtain ⟨low, afterLow, hlow, h⟩ := follow_eq_ok.1 h
          obtain ⟨x', y', z', w', rfl, rfl, isLow⟩ := exists_low_unit hlow
          obtain ⟨rfl, rfl⟩ := Prod.ext_iff.1 (Except.ok.inj h)
          refine ⟨[.unit x y z w, .unit x' y' z' w'], by simp [Piece.text], fun later cs hl => ?_⟩
          refine decode?_cons_of_paired? ?_ hl
          rw [Piece.paired?, Piece.unit?, Piece.unit?]
          simp only [high, isLow, Bool.and_self, if_true]
        next notHigh =>
          obtain ⟨rfl, rfl⟩ := Prod.ext_iff.1 (Except.ok.inj h)
          refine ⟨[.unit x y z w], by simp [Piece.text], fun later cs hl => ?_⟩
          refine decode?_cons_of_char? ?_ hl
          rw [Piece.char?]
          simp only [notHigh, notLow, Bool.or_self, Bool.false_eq_true, if_false]
    next =>
      split at h
      next e he =>
        cases h
        obtain ⟨e, rfl, rfl⟩ := exists_shortEscape he
        exact ⟨[.short e], rfl, fun later cs hl => decode?_cons_of_char? rfl hl⟩
      next => cases h

/-- What is read as a string has pieces that decode to it. -/
theorem exists_pieces {text rest cs : List Char}
    (h : outcome (readString text) = .ok (cs, rest)) :
    ∃ pieces, text = pieces.flatMap Piece.text ++ '"' :: rest ∧ decode? pieces = some cs := by
  induction hn : text.length using Nat.strongRecOn generalizing text cs with
  | ind n ih =>
    cases text with
    | nil =>
      rw [readString] at h
      cases h
    | cons c text =>
      rw [outcome_readString_cons] at h
      split at h
      next hc =>
        cases h
        exact ⟨[], by rw [hc]; rfl, rfl⟩
      next noQuote =>
        split at h
        next => cases h
        next printable =>
          split at h
          next hc =>
            subst hc
            obtain ⟨e, afterEscape, he, h⟩ := follow_eq_ok.1 h
            obtain ⟨ds, afterString, hs, h⟩ := follow_eq_ok.1 h
            cases h
            have shorter := length_lt_of_outcome he
            obtain ⟨later, rfl, hd⟩ := ih afterEscape.length
              (by rw [← hn, List.length_cons]; omega) hs rfl
            obtain ⟨pieces, hp, decodes⟩ := exists_pieces_of_escape he
            exact ⟨pieces ++ later, by rw [hp, List.flatMap_append, List.append_assoc],
              decodes later ds hd⟩
          next noBackslash =>
            obtain ⟨ds, afterString, hs, h⟩ := follow_eq_ok.1 h
            cases h
            obtain ⟨later, rfl, hd⟩ := ih text.length (by rw [← hn, List.length_cons]; omega) hs rfl
            exact ⟨.plain c ⟨Nat.not_lt.1 printable, noQuote, noBackslash⟩ :: later, rfl,
              decode?_cons_of_char? rfl hd⟩

end Untyped.Json
