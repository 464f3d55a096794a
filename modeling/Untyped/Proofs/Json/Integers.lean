import Mathlib
import Untyped.Proofs.Json.Denotation
import Untyped.Proofs.Json.Scaling

/-! Integers as they are written and as numbers. Between the bounds of 64 bits, signed below and
unsigned above, an integer is kept as it is; below them it is the nearest double, as it is with a
fraction or an exponent. A negative zero is a double too. -/
namespace Untyped

namespace Digit

theorem ofNat_toNat {d : Digit} {ds : List Digit} (lone : d = 0 → ds = []) :
    ofNat (toNat (d :: ds)) = d :: ds := by
  induction ds using List.reverseRecOn with
  | nil =>
    have single : toNat [d] = d.val := by simp [toNat, append]
    rw [single, ofNat, if_pos d.isLt]
    simp [Fin.ofNat_eq_cast]
  | append_singleton ds last ih =>
    have nonzero : d ≠ 0 := fun zero => by simpa using lone zero
    have least : d.val ≤ toNat (d :: ds) := by
      simpa [toNat, append] using Json.le_append d.val ds
    have positive : 0 < d.val := Nat.pos_of_ne_zero fun zero => nonzero (Fin.ext zero)
    have whole : toNat (d :: (ds ++ [last])) = toNat (d :: ds) * 10 + last.val :=
      append_append 0 (d :: ds) [last]
    rw [whole, ofNat, if_neg (by omega),
      show (toNat (d :: ds) * 10 + last.val) / 10 = toNat (d :: ds) by omega,
      ih fun zero => absurd zero nonzero, List.cons_append]
    congr
    apply Fin.ext
    change (toNat (d :: ds) * 10 + last.val) % 10 = last.val
    omega

end Digit

namespace Json
open Binary (Finite)
open Format (double)

namespace Numeral

theorem scaled_zero {s : Nat} (hs : s ≤ 2 ^ 64) :
    scaled (.ofNat .double s) 0 =
      some ⟨false, double.nearestRank s 1, Binary.double_nearestRank_lt_of_le hs⟩ := by
  have finite := Binary.double_nearestRank_lt_of_le hs
  obtain ⟨x, hx, signX, _, rankX⟩ := exists_ofNat finite
  obtain ⟨y, hy, signY, valueY, _⟩ := exists_powerOfTen (Nat.zero_le 308)
  have one : double.value y.rank = (1 : Nat) := by
    rw [valueY, ← rounded_of_le (show 1 ≤ 2 ^ 53 by decide)]
    rfl
  have product := nearly_mul signX signY (.of_eq rfl) (.of_eq one) (double.value_nonneg x.rank)
  rw [Nat.cast_one, mul_one] at product
  rw [scaled_of_nonneg _ (Int.le_refl 0) (by decide), hx, Int.toNat_zero, hy,
    product.eq_ofRank (double.roundsTo_value x.rank), Binary.ofRank, dif_pos x.rank_lt]
  simp only [rankX]
  rfl

theorem exists_float_of_toRounded {n : Numeral} {k : Number} (h : n.toRounded = .ok k) :
    ∃ x, k = .float x := by
  have float {power : Int} (h : n.toFloat power = .ok k) : ∃ x, k = .float x := by
    rw [toFloat] at h
    split at h
    next => exact ⟨_, (Except.ok.inj h).symm⟩
    next => cases h
  rw [toRounded] at h
  split at h
  next => exact float h
  next =>
    split at h
    next => exact float h
    next =>
      split at h
      next => exact ⟨_, (Except.ok.inj h).symm⟩
      next => cases h

end Numeral

namespace NumberToken

def whole (t : NumberToken) : Int :=
  let magnitude := Digit.toNat (t.leading :: t.later)
  if t.negative then -(magnitude : Int) else magnitude

/-- A number without a fraction and without an exponent. -/
structure Plain (t : NumberToken) : Prop where
  fraction : t.fraction = []
  exponent : t.exponent = none

theorem length_digits_le (t : NumberToken) :
    t.numeral.whole.length + t.numeral.fraction.length ≤ t.text.length := by
  have places : t.fraction.length ≤ (fractionText t.fraction).length := by
    rw [fractionText]
    split
    next none => simp [none]
    next => simp [Digit.chars]
  have unsigned : (t.leading :: t.later).length + t.fraction.length ≤ t.unsigned.length := by
    rw [NumberToken.unsigned, List.length_append, List.length_append, Digit.chars, List.length_map]
    omega
  have signed : t.unsigned.length ≤ t.text.length := by
    rw [text]
    split <;> simp
  exact unsigned.trans signed

theorem natAbs_whole (t : NumberToken) :
    t.whole.natAbs = Digit.toNat (t.leading :: t.later) := by
  rw [whole]
  split <;> simp

theorem signed_whole (t : NumberToken) :
    Binary.signed t.negative (t.whole.natAbs : ℚ) = t.whole := by
  rw [natAbs_whole, whole, Binary.signed]
  split <;> push_cast <;> rfl

theorem ofNat_natAbs_whole (t : NumberToken) :
    Digit.ofNat t.whole.natAbs = t.leading :: t.later := by
  rw [natAbs_whole, Digit.ofNat_toNat t.lone_zero]

theorem plain_of_integer? {t : NumberToken} {k : Int} (integer : t.integer? = some k) :
    t.Plain ∧ t.whole = k := by
  rw [integer?] at integer
  split at integer
  next marks =>
    refine ⟨⟨marks.1, Option.isNone_iff_eq_none.1 marks.2⟩, ?_⟩
    rw [whole]
    split at integer
    next negative =>
      split at integer
      next => cases integer
      next => rw [if_pos negative, Option.some.inj integer]
    next positive => rw [if_neg positive, Option.some.inj integer]
  next => cases integer

namespace Plain

variable {t : NumberToken} (plain : t.Plain)

include plain

theorem unsigned : t.unsigned = Digit.chars (t.leading :: t.later) := by
  rw [NumberToken.unsigned, plain.fraction, plain.exponent, fractionText, if_pos rfl]
  exact List.append_nil _

theorem significand : t.significand = t.whole.natAbs := by
  rw [NumberToken.significand, plain.fraction, List.append_nil, natAbs_whole]

theorem power : t.power = 0 := by
  rw [NumberToken.power, plain.fraction, plain.exponent]
  rfl

theorem magnitude : t.numeral.magnitude = t.whole.natAbs := by
  rw [magnitude_numeral, plain.significand, plain.power, zpow_zero, mul_one]

theorem text_eq_iff : t.text = ['-', '0'] ↔ t.negative = true ∧ t.whole = 0 := by
  have digits := t.ofNat_natAbs_whole
  rw [text, plain.unsigned, ← digits]
  constructor
  · intro h
    split at h
    next negative =>
      refine ⟨negative, ?_⟩
      have alone : Digit.chars (Digit.ofNat t.whole.natAbs) = Digit.chars [0] := (List.cons.inj h).2
      have same := congrArg Digit.span alone
      rw [Digit.span_chars_all, Digit.span_chars_all] at same
      have zero := congrArg Digit.toNat (Prod.mk.inj same).1
      rw [Digit.toNat_ofNat] at zero
      exact Int.natAbs_eq_zero.1 zero
    next =>
      rw [digits] at h
      exact absurd (List.cons.inj h).1 (Digit.ofChar?_of_ne t.leading (by decide))
  · rintro ⟨negative, zero⟩
    have zeros : Digit.ofNat 0 = [0] := by rw [Digit.ofNat, if_pos (by decide)]; rfl
    rw [if_pos negative, zero, Int.natAbs_zero, zeros]
    rfl

section Kept

variable (other : t.text ≠ ['-', '0'])

include other

theorem whole_neg_iff : t.whole < 0 ↔ t.negative = true := by
  have nonzero : t.negative = true → t.whole ≠ 0 := fun negative zero =>
    other (plain.text_eq_iff.2 ⟨negative, zero⟩)
  have sign : t.whole = if t.negative then -(t.whole.natAbs : Int) else t.whole.natAbs := by
    rw [natAbs_whole]
    rfl
  constructor
  · intro h
    by_contra positive
    rw [if_neg positive] at sign
    omega
  · intro negative
    have := nonzero negative
    rw [if_pos negative] at sign
    omega

theorem text_eq : t.text = Number.writeInt t.whole := by
  rw [text, plain.unsigned, Number.writeInt, ofNat_natAbs_whole]
  by_cases negative : t.negative
  · rw [if_pos negative, if_pos ((plain.whole_neg_iff other).2 negative)]
  · rw [if_neg negative, if_neg (mt (plain.whole_neg_iff other).1 negative)]

theorem integer? : t.integer? = some t.whole := by
  have nonzero : t.negative = true → ¬Digit.toNat (t.leading :: t.later) = 0 := fun negative zero =>
    other (plain.text_eq_iff.2 ⟨negative, Int.natAbs_eq_zero.1 (t.natAbs_whole.trans zero)⟩)
  have marks : t.fraction = [] ∧ t.exponent.isNone := ⟨plain.fraction, by simp [plain.exponent]⟩
  rw [NumberToken.integer?, if_pos marks, whole]
  by_cases negative : t.negative
  · rw [if_pos negative, if_pos negative, if_neg (nonzero negative)]
  · rw [if_neg negative, if_neg negative]

theorem number?_of_inRange (h : -0x8000000000000000 ≤ t.whole ∧ t.whole < 0x10000000000000000) :
    t.number? = some (.integer t.whole h) := by
  rw [number?, plain.integer? other, Option.bind_some, Number.ofInt?, dif_pos h, Option.some_or]

end Kept

theorem number?_of_rounded (fits : t.whole.natAbs < 0x10000000000000000)
    (rounded : t.integer?.bind Number.ofInt? = none) :
    ∃ x : Finite .double, t.number? = some (.float x) ∧ x.negative = t.negative ∧
      x.rank = double.nearestRank t.whole.natAbs 1 ∧ x.IsNearest t.whole := by
  have scaled := Numeral.scaled_zero (s := t.whole.natAbs) (by omega)
  have number := number?_of_scaled (by rwa [plain.significand]) rounded (by simp [plain.exponent])
    (by rw [plain.significand, plain.power, scaled])
  refine ⟨_, number, rfl, rfl, ?_⟩
  have finite := Binary.double_nearestRank_lt_of_le (n := t.whole.natAbs) (by omega)
  have nearest := Finite.isNearest_of_rank (x := ⟨t.negative, _, finite⟩) Nat.one_pos rfl
  rw [Nat.cast_one, div_one, signed_whole] at nearest
  exact nearest

theorem number?_of_minus_zero (h : t.text = ['-', '0']) :
    t.number? = some (.float ⟨true, 0, by decide⟩) := by
  obtain ⟨negative, zero⟩ := plain.text_eq_iff.1 h
  have magnitude : Digit.toNat (t.leading :: t.later) = 0 := by rw [← natAbs_whole, zero]; rfl
  have absent : t.integer? = none := by
    rw [NumberToken.integer?]
    simp [negative, magnitude]
  obtain ⟨x, number, sign, rank, _⟩ := plain.number?_of_rounded (by rw [zero]; decide)
    (by rw [absent, Option.bind_none])
  obtain ⟨_, _, _⟩ := x
  have least : double.nearestRank 0 1 = 0 :=
    double.nearestRank_of_eq_value Nat.one_pos (by simp [Format.value_zero])
  rw [zero, Int.natAbs_zero, least] at rank
  obtain rfl : _ = true := sign.trans negative
  obtain rfl : _ = 0 := rank
  exact number

end Plain

/-- A number is kept as the integer that is written, or is what it is rounded to. -/
theorem number?_cases {t : NumberToken} {n : Number} (number : t.number? = some n) :
    (∃ k h, n = .integer k h ∧ t.integer? = some k) ∨
      ∃ x, n = .float x ∧ t.numeral.toRounded = .ok (.float x) := by
  rw [number?, Option.or_eq_some_iff] at number
  obtain kept | ⟨_, rounded⟩ := number
  · obtain ⟨k, integer, kept⟩ := Option.bind_eq_some_iff.1 kept
    rw [Number.ofInt?] at kept
    split at kept
    next h => exact .inl ⟨k, h, (Option.some.inj kept).symm, integer⟩
    next => cases kept
  · cases result : t.numeral.toRounded with
    | error e =>
      rw [result] at rounded
      cases rounded
    | ok m =>
      obtain ⟨x, rfl⟩ := Numeral.exists_float_of_toRounded result
      rw [result] at rounded
      exact .inr ⟨x, (Option.some.inj rounded).symm, rfl⟩

section Marked

variable {t : NumberToken} (marked : t.fraction ≠ [] ∨ t.exponent ≠ none)

include marked

theorem integer?_of_marked : t.integer? = none := by
  rw [integer?, if_neg]
  rintro ⟨fraction, exponent⟩
  exact marked.elim (absurd fraction) (absurd (Option.isNone_iff_eq_none.1 exponent))

theorem number?_of_marked : t.number? = t.numeral.toRounded.toOption := by
  rw [number?, integer?_of_marked marked, Option.bind_none, Option.none_or]

theorem exists_float_of_marked {n : Number} (number : t.number? = some n) : ∃ x, n = .float x := by
  obtain ⟨k, _, _, integer⟩ | ⟨x, float, _⟩ := number?_cases number
  · rw [integer?_of_marked marked] at integer
    cases integer
  · exact ⟨x, float⟩

end Marked

end NumberToken

end Json

end Untyped
