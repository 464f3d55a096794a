import Mathlib
import Untyped.Proofs.Decimal.Layout

/-! The literal that a double is written as: its digits as one whole number, and the power of ten
that scales it. Both are small enough for the reader to take them over without loss. -/
namespace Untyped.Json

def Exponent.toInt (e : Exponent) : Int :=
  if e.sign = some true then -Digit.toNat e.digits else Digit.toNat e.digits

namespace NumberToken

/-- The number of all the digits, the point left out. -/
def significand (t : NumberToken) : Nat := Digit.toNat (t.leading :: t.later ++ t.fraction)

/-- The power of ten that the significand is multiplied by. -/
def power (t : NumberToken) : Int := t.exponent.elim 0 Exponent.toInt - t.fraction.length

end NumberToken

namespace Numeral

theorem readPower_of_lt {acc : Nat} {ds : List Digit} (h : Digit.append acc ds < 0x80000000) :
    readPower acc ds = .ok (Digit.append acc ds) := by
  induction ds generalizing acc with
  | nil => rfl
  | cons d ds ih =>
    have next_lt := Nat.lt_of_le_of_lt (le_append (acc * 10 + d.val) ds) h
    rw [readPower, if_pos next_lt]
    exact ih h

theorem readPower_of_le {acc : Nat} {ds : List Digit} (fits : acc < 0x80000000)
    (h : 0x80000000 ≤ Digit.append acc ds) : ∃ unread, readPower acc ds = .error unread := by
  induction ds generalizing acc with
  | nil => exact absurd fits (Nat.not_lt.2 h)
  | cons d ds ih =>
    rw [readPower]
    split
    next next_lt => exact ih next_lt h
    next => exact ⟨_, rfl⟩

theorem toFloat_of_scaled {n : Numeral} {p : Int} {rank : Nat}
    {finite : rank < Format.double.count}
    (h : scaled (.ofNat .double n.significand) p = some ⟨false, rank, finite⟩) :
    n.toFloat p = .ok (.float ⟨n.negative, rank, finite⟩) := by
  rw [toFloat, h]
  cases n.negative <;> rfl

end Numeral

namespace NumberToken

theorem text_of_unsigned {t : NumberToken} {cs : List Char} (h : t.unsigned = cs) :
    t.text = if t.negative then '-' :: cs else cs := by
  rw [text, h]

variable {t : NumberToken} (fits : t.significand < 0x10000000000000000)

include fits

theorem wholePart_numeral :
    t.numeral.wholePart = (Digit.toNat (t.leading :: t.later), []) := by
  apply Numeral.gather_of_lt
  have all : t.significand = Digit.append (Digit.toNat (t.leading :: t.later)) t.fraction :=
    Digit.append_append 0 (t.leading :: t.later) t.fraction
  have := le_append (Digit.toNat (t.leading :: t.later)) t.fraction
  change Digit.toNat (t.leading :: t.later) < _
  omega

theorem mantissa_numeral : t.numeral.mantissa = (t.significand, []) := by
  have all : t.significand = Digit.append (Digit.toNat (t.leading :: t.later)) t.fraction :=
    Digit.append_append 0 (t.leading :: t.later) t.fraction
  rw [Numeral.mantissa, wholePart_numeral fits, all]
  rw [all] at fits
  exact Numeral.gather_of_lt fits

theorem position_numeral : t.numeral.position = -t.fraction.length := by
  have places : t.numeral.fraction = t.fraction := rfl
  rw [Numeral.position, wholePart_numeral fits, mantissa_numeral fits, places]
  simp

theorem toRounded_numeral
    (exponent : ∀ e ∈ t.exponent, Digit.toNat e.digits < 0x80000000) :
    t.numeral.toRounded = t.numeral.toFloat t.power := by
  have position := position_numeral fits
  rw [Numeral.toRounded, power]
  cases he : t.exponent with
  | none =>
    have absent : t.numeral.exponent = none := by rw [numeral, he]; rfl
    rw [absent, position]
    simp
  | some e =>
    have present : t.numeral.exponent = some (decide (e.sign = some true), e.digits) := by
      rw [numeral, he]
      rfl
    have read : Numeral.readPower 0 e.digits = .ok (Digit.toNat e.digits) :=
      Numeral.readPower_of_lt (exponent e he)
    rw [present]
    dsimp only
    rw [read, position, Option.elim_some, Exponent.toInt]
    dsimp only
    by_cases down : e.sign = some true
    · rw [if_pos down, if_pos (decide_eq_true down), Int.sub_eq_add_neg, Int.add_comm]
      rfl
    · rw [if_neg down, if_neg (mt of_decide_eq_true down), Int.sub_eq_add_neg, Int.add_comm]

theorem number?_of_scaled (rounded : t.integer?.bind Number.ofInt? = none)
    (exponent : ∀ e ∈ t.exponent, Digit.toNat e.digits < 0x80000000) {rank : Nat}
    {finite : rank < Format.double.count}
    (scaled : Numeral.scaled (.ofNat .double t.significand) t.power = some ⟨false, rank, finite⟩) :
    t.number? = some (.float ⟨t.negative, rank, finite⟩) := by
  have significand : t.numeral.significand = t.significand := by
    rw [Numeral.significand, mantissa_numeral fits]
  rw [← significand] at scaled
  rw [number?, rounded, Option.none_or, toRounded_numeral fits exponent,
    Numeral.toFloat_of_scaled scaled]
  rfl

end NumberToken

section Written

variable (negative : Bool) (d : Decimal)

/-- The literal is the text of the decimal with its sign, and what it means is the decimal. The
digits of one without a fraction are followed by the `0` that is added as one. -/
structure Spells (t : NumberToken) : Prop where
  text : t.text = if negative then '-' :: d.write Number.style else d.write Number.style
  negative : t.negative = negative
  whole : t.integer? = none
  scaled : (t.significand = d.coefficient ∧ t.power = d.exponent) ∨
    (0 ≤ d.exponent ∧ d.leading ≤ 15 ∧
      t.significand = d.coefficient * 10 ^ (d.exponent.toNat + 1) ∧ t.power = -1)
  exponent : ∀ e ∈ t.exponent, Digit.toNat e.digits = d.leading.natAbs

theorem exists_positional (nonzero : 0 < d.coefficient ∨ d.exponent = 0) (low : -5 ≤ d.leading)
    (high : d.leading ≤ 15) : ∃ t, Spells negative d t := by
  obtain ⟨first, later, hw⟩ := d.exists_whole
  have lone := d.lone_zero_whole nonzero hw
  have placed : Number.style.positional d.leading = true := decide_eq_true ⟨low, high⟩
  have written : d.write Number.style =
      if 0 ≤ d.exponent then d.positional ++ ['.', '0'] else d.positional := by
    rw [Decimal.write, if_pos placed]
    by_cases h : 0 ≤ d.exponent <;> simp [h, Number.style]
  by_cases whole : 0 ≤ d.exponent
  · refine ⟨⟨negative, first, later, lone, [0], none⟩, ?_, rfl, ?_, .inr ⟨whole, high, ?_, rfl⟩, ?_⟩
    · rw [written, if_pos whole]
      apply NumberToken.text_of_unsigned
      rw [d.positional_eq, d.fraction_of_nonneg whole, hw]
      simp [NumberToken.unsigned, NumberToken.fractionText]
      rfl
    · simp [NumberToken.integer?]
    · rw [NumberToken.significand, ← hw, d.whole_of_nonneg whole, Digit.toNat_append,
        Digit.toNat_append, Digit.toNat_replicate, List.length_replicate, Decimal.digits,
        Digit.toNat_ofNat]
      have zero : Digit.toNat [0] = 0 := rfl
      rw [zero, List.length_singleton, pow_succ]
      ring
    · simp
  · have length : d.fraction.length = -d.exponent := by
      rw [d.length_fraction, Decimal.places]
      omega
    have point : d.fraction ≠ [] := by
      rw [← List.length_pos_iff]
      omega
    refine ⟨⟨negative, first, later, lone, d.fraction, none⟩, ?_, rfl, ?_, .inl ⟨?_, ?_⟩, ?_⟩
    · rw [written, if_neg whole]
      apply NumberToken.text_of_unsigned
      rw [d.positional_eq, hw, NumberToken.unsigned, Option.elim_none, List.append_nil]
    · simp [NumberToken.integer?, point]
    · rw [NumberToken.significand, ← hw, d.whole_append_fraction (by omega), d.toNat_padded]
    · rw [NumberToken.power]
      simp [length]
    · simp

theorem exists_scientific (far : ¬(-5 ≤ d.leading ∧ d.leading ≤ 15)) :
    ∃ t, Spells negative d t := by
  obtain ⟨first, rest, digits, _⟩ := Digit.exists_ofNat d.coefficient
  have notPlaced : ¬Number.style.positional d.leading = true := mt of_decide_eq_true far
  have length : d.digits.length = rest.length + 1 := by rw [Decimal.digits, digits]; rfl
  have value : Digit.toNat (Digit.ofNat d.leading.natAbs) = d.leading.natAbs := Digit.toNat_ofNat _
  refine ⟨⟨negative, first, [], fun _ => rfl, rest,
    some ⟨false, some (decide (d.leading < 0)), Digit.ofNat d.leading.natAbs,
      Digit.ofNat_ne_nil _⟩⟩, ?_, rfl, ?_, .inl ⟨?_, ?_⟩, ?_⟩
  · rw [Decimal.write, if_neg notPlaced]
    apply NumberToken.text_of_unsigned
    rw [Decimal.scientific, Decimal.digits, digits]
    have sign : signText (some (decide (d.leading < 0))) = [if d.leading < 0 then '-' else '+'] := by
      by_cases down : d.leading < 0 <;> simp [down, signText]
    cases rest <;>
      simp [NumberToken.unsigned, NumberToken.fractionText, Exponent.text, sign, Digit.chars]
  · simp [NumberToken.integer?]
  · exact Digit.toNat_ofNat_cons digits
  · have leading : d.leading = rest.length + d.exponent := by
      rw [Decimal.leading, length]
      omega
    rw [NumberToken.power, Option.elim_some, Exponent.toInt, value]
    dsimp only
    by_cases down : d.leading < 0
    · rw [if_pos (by rw [decide_eq_true down])]
      omega
    · rw [if_neg (by rw [decide_eq_false down]; simp)]
      omega
  · intro e he
    cases he
    exact value

theorem exists_spells (nonzero : 0 < d.coefficient ∨ d.exponent = 0) :
    ∃ t, Spells negative d t := by
  by_cases near : -5 ≤ d.leading ∧ d.leading ≤ 15
  · exact exists_positional negative d nonzero near.1 near.2
  · exact exists_scientific negative d near

variable {negative d}

theorem Spells.toRat_eq {t : NumberToken} (h : Spells negative d t) :
    (t.significand * 10 ^ t.power : ℚ) = d.toRat := by
  rw [Decimal.toRat]
  obtain ⟨significand, power⟩ | ⟨whole, _, significand, power⟩ := h.scaled
  · rw [significand, power]
  · obtain ⟨n, hn⟩ := Int.eq_ofNat_of_zero_le whole
    rw [significand, power, hn, Int.toNat_natCast, zpow_natCast, zpow_neg_one, pow_succ]
    push_cast
    field_simp

theorem Spells.significand_lt {t : NumberToken} (h : Spells negative d t)
    (few : d.coefficient < 0x10000000000000000) : t.significand < 0x10000000000000000 := by
  obtain ⟨significand, _⟩ | ⟨whole, high, significand, _⟩ := h.scaled
  · omega
  · have value : d.coefficient < 10 ^ d.digits.length := by
      have := Digit.toNat_lt d.digits
      rwa [Decimal.digits, Digit.toNat_ofNat] at this
    have short : d.digits.length + (d.exponent.toNat + 1) ≤ 17 := by
      rw [Decimal.leading] at high
      omega
    calc t.significand = d.coefficient * 10 ^ (d.exponent.toNat + 1) := significand
      _ ≤ 10 ^ d.digits.length * 10 ^ (d.exponent.toNat + 1) := by gcongr
      _ = 10 ^ (d.digits.length + (d.exponent.toNat + 1)) := (pow_add _ _ _).symm
      _ ≤ 10 ^ 17 := Nat.pow_le_pow_right (by omega) short
      _ < 0x10000000000000000 := by norm_num

end Written

theorem pow_lt_pow_of_nat {m n : Nat} (h : 2 ^ m < 10 ^ n) : (2 : ℚ) ^ m < 10 ^ n := by
  exact_mod_cast h

theorem two_pow_lt_ten_pow : (2 : ℚ) ^ 1024 < 10 ^ 309 := pow_lt_pow_of_nat (by decide +kernel)

theorem lt_gap_zero : (10 : ℚ) ^ (-324 : Int) < Format.double.gap 0 := by
  have scale : Format.double.scale = 1074 := by decide
  have beyond : (2 : ℚ) ^ 1074 < 10 ^ 324 := pow_lt_pow_of_nat (by decide +kernel)
  rw [Format.gap_zero, scale, zpow_neg, ← one_div]
  exact one_div_lt_one_div_of_lt (by positivity) beyond

theorem exponent_shortest_bounds (x : Binary.Finite .double) :
    -324 ≤ (x.shortest .even).exponent ∧ (x.shortest .even).exponent ≤ 308 := by
  obtain zero | positive := Nat.eq_zero_or_pos x.rank
  · rw [x.shortest_zero .even zero]
    decide
  · constructor
    · by_contra low
      have least := x.gap_le_exponent_shortest .even positive
      have power : (10 : ℚ) ^ ((x.shortest .even).exponent + 1) ≤ 10 ^ (-324 : Int) :=
        zpow_le_zpow_right₀ (by norm_num) (by omega)
      exact absurd (least.trans power) (not_le.2 lt_gap_zero)
    · by_contra high
      have most := x.exponent_shortest_lt .even positive
      have power : (10 : ℚ) ^ ((309 : Nat) : Int) ≤ 10 ^ (x.shortest .even).exponent :=
        zpow_le_zpow_right₀ (by norm_num) (by omega)
      have beyond := two_pow_lt_ten_pow
      rw [zpow_natCast] at power
      rw [Format.double_value_count] at most
      exact absurd (power.trans most.le) (not_le.2 beyond)

/-- The literal that a double is written as, whose digits fit 64 bits. -/
structure LiteralOf (x : Binary.Finite .double) (t : NumberToken) : Prop
    extends Spells x.negative (x.shortest .even) t where
  fits : t.significand < 0x10000000000000000
  short : ∀ e ∈ t.exponent, Digit.toNat e.digits < 0x80000000
  low : -324 ≤ t.power
  high : t.power ≤ 308

theorem exists_literalOf (x : Binary.Finite .double) : ∃ t, LiteralOf x t := by
  have bounds := exponent_shortest_bounds x
  have few : (x.shortest .even).coefficient ≤ 40 * 2 ^ 52 := x.coefficient_shortest_le .even
  have length : (x.shortest .even).digits.length ≤ 18 :=
    Digit.length_ofNat_le (by omega) (by omega)
  obtain ⟨t, spells⟩ := exists_spells x.negative (x.shortest .even) (x.shortest_nonzero .even)
  have power : t.power = (x.shortest .even).exponent ∨ t.power = -1 :=
    spells.scaled.imp And.right fun h => h.2.2.2
  refine ⟨t, spells, spells.significand_lt (by omega), fun e he => ?_, by omega, by omega⟩
  rw [spells.exponent e he, Decimal.leading]
  omega

end Untyped.Json
