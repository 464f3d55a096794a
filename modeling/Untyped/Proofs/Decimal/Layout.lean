import Mathlib
import Untyped.Decimal.Reader
import Untyped.Proofs.Decimal.Shortest
import Untyped.Proofs.Json.Numbers
import Untyped.Proofs.Json.Written

/-! The digits of a decimal before and after its point, and that they are read back as the number
they were written for. -/
namespace Untyped

namespace Digit

theorem span_chars_all (ds : List Digit) : span (chars ds) = (ds, []) := by
  have atEnd : Stops [] := fun c hc => absurd hc (by simp)
  have := span_chars ds atEnd
  rwa [List.append_nil] at this

theorem append_eq (acc : Nat) (ds : List Digit) :
    append acc ds = acc * 10 ^ ds.length + toNat ds := by
  induction ds generalizing acc with
  | nil => simp [append, toNat]
  | cons d ds ih =>
    have first : toNat (d :: ds) = append (0 * 10 + d.val) ds := rfl
    change append (acc * 10 + d.val) ds = _
    rw [first, ih, ih (0 * 10 + d.val), List.length_cons, pow_succ]
    ring

theorem toNat_append (ds es : List Digit) :
    toNat (ds ++ es) = toNat ds * 10 ^ es.length + toNat es := by
  rw [toNat, append_append, append_eq]
  rfl

theorem toNat_replicate (n : Nat) : toNat (List.replicate n zero) = 0 := by
  induction n with
  | zero => rfl
  | succ n ih =>
    rw [List.replicate_succ', toNat_append, ih]
    rfl

theorem toNat_lt (ds : List Digit) : toNat ds < 10 ^ ds.length := by
  induction ds using List.reverseRecOn with
  | nil => decide
  | append_singleton ds d ih =>
    have last : toNat [d] = d.val := Nat.zero_add d.val
    have := d.isLt
    rw [toNat_append, last, List.length_append, List.length_singleton, pow_one, pow_succ]
    omega

theorem length_ofNat_le {n k : Nat} (hk : 0 < k) (h : n < 10 ^ k) : (ofNat n).length ≤ k := by
  induction n using Nat.strongRecOn generalizing k with
  | ind n ih =>
    rw [ofNat]
    split
    next => exact hk
    next large =>
      obtain ⟨j, rfl⟩ := Nat.exists_eq_succ_of_ne_zero (Nat.ne_of_gt hk)
      rw [Nat.pow_succ] at h
      have more : 0 < j := by
        by_contra zero
        rw [Nat.eq_zero_of_not_pos zero] at h
        omega
      have := ih (n / 10) (by omega) more (by omega)
      rw [List.length_append, List.length_singleton]
      omega

theorem toNat_ofNat_cons {n : Nat} {first : Digit} {later : List Digit}
    (h : ofNat n = first :: later) : toNat (first :: later) = n := by
  rw [← h, toNat_ofNat]

theorem eq_zero_of_ofNat {n : Nat} {later : List Digit} (h : ofNat n = 0 :: later) :
    n = 0 := by
  obtain ⟨first, rest, same, lone⟩ := exists_ofNat n
  rw [h] at same
  obtain ⟨rfl, rfl⟩ := List.cons.inj same
  rw [lone rfl] at h
  exact (toNat_ofNat_cons h).symm

end Digit

namespace Decimal

def places (d : Decimal) : Nat := (-d.exponent).toNat

def padded (d : Decimal) : List Digit :=
  List.replicate (d.places + 1 - d.digits.length) Digit.zero ++ d.digits

def whole (d : Decimal) : List Digit :=
  d.padded.take (d.padded.length - d.places) ++ List.replicate d.exponent.toNat Digit.zero

def fraction (d : Decimal) : List Digit := d.padded.drop (d.padded.length - d.places)

variable (d : Decimal)

theorem places_lt_length_padded : d.places < d.padded.length := by
  rw [padded, List.length_append, List.length_replicate]
  omega

theorem length_fraction : d.fraction.length = d.places := by
  have := d.places_lt_length_padded
  rw [fraction, List.length_drop]
  omega

theorem length_digits_pos : 0 < d.digits.length := List.length_pos_iff.2 (Digit.ofNat_ne_nil _)

theorem padded_of_places (h : d.places = 0) : d.padded = d.digits := by
  have := d.length_digits_pos
  rw [padded, h, show 0 + 1 - d.digits.length = 0 by omega]
  rfl

theorem whole_of_nonneg (h : 0 ≤ d.exponent) :
    d.whole = d.digits ++ List.replicate d.exponent.toNat Digit.zero := by
  have none : d.places = 0 := by
    rw [places]
    omega
  rw [whole, none, Nat.sub_zero, List.take_length, d.padded_of_places none]

theorem fraction_of_nonneg (h : 0 ≤ d.exponent) : d.fraction = [] := by
  rw [← List.length_eq_zero_iff, length_fraction, places]
  omega

theorem whole_append_fraction (h : d.exponent < 0) : d.whole ++ d.fraction = d.padded := by
  rw [whole, fraction, show d.exponent.toNat = 0 by omega, List.replicate_zero, List.append_nil,
    List.take_append_drop]

theorem toNat_padded : Digit.toNat d.padded = d.coefficient := by
  rw [padded, Digit.toNat_append, Digit.toNat_replicate, Nat.zero_mul, Nat.zero_add]
  exact Digit.toNat_ofNat d.coefficient

/-- The text has the digits before the point, and the point only if there are digits after it. -/
theorem positional_eq :
    d.positional = Digit.chars d.whole ++ Json.NumberToken.fractionText d.fraction := by
  have zeros (n : Nat) : Digit.chars (List.replicate n Digit.zero) = List.replicate n '0' := by
    rw [Digit.chars, List.map_replicate]
    rfl
  by_cases h : 0 ≤ d.exponent
  · rw [positional, if_pos h, d.fraction_of_nonneg h, Json.NumberToken.fractionText, if_pos rfl,
      List.append_nil, d.whole_of_nonneg h, ← zeros, Digit.chars_append]
  · have same : d.places = d.exponent.natAbs := by
      rw [places]
      omega
    have nonempty : d.fraction ≠ [] := by
      rw [← List.length_pos_iff, length_fraction, places]
      omega
    have text : List.replicate (d.exponent.natAbs + 1 - (Digit.chars d.digits).length) '0' ++
        Digit.chars d.digits = Digit.chars d.padded := by
      rw [← zeros, padded, same]
      simp [Digit.chars]
    have whole : d.whole = d.padded.take (d.padded.length - d.exponent.natAbs) := by
      rw [Decimal.whole, show d.exponent.toNat = 0 by omega, List.replicate_zero, List.append_nil,
        same]
    rw [positional, if_neg h]
    dsimp only
    rw [text, Json.NumberToken.fractionText, if_neg nonempty, whole, fraction, same]
    simp [Digit.chars, List.map_take, List.map_drop]

/-- The digits denote the decimal, the point taken into account. -/
theorem toNat_whole_append_fraction :
    (Digit.toNat (d.whole ++ d.fraction) : ℚ) / 10 ^ d.fraction.length = d.toRat := by
  rw [toRat, length_fraction]
  by_cases h : 0 ≤ d.exponent
  · obtain ⟨n, hn⟩ := Int.eq_ofNat_of_zero_le h
    rw [d.fraction_of_nonneg h, List.append_nil, d.whole_of_nonneg h, Digit.toNat_append,
      Digit.toNat_replicate, List.length_replicate, places, hn]
    simp [digits, Digit.toNat_ofNat]
  · obtain ⟨n, hn⟩ := Int.eq_ofNat_of_zero_le (show 0 ≤ -d.exponent by omega)
    rw [d.whole_append_fraction (by omega), toNat_padded, places, hn, Int.toNat_natCast,
      ← neg_neg d.exponent, hn, zpow_neg, zpow_natCast]
    rfl

theorem whole_ne_nil : d.whole ≠ [] := by
  have := d.places_lt_length_padded
  rw [← List.length_pos_iff, whole, List.length_append, List.length_take]
  omega

theorem exists_whole : ∃ first later, d.whole = first :: later :=
  List.exists_cons_of_ne_nil d.whole_ne_nil

theorem lone_zero_whole (nonzero : 0 < d.coefficient ∨ d.exponent = 0) {first : Digit}
    {later : List Digit} (h : d.whole = first :: later) (zero : first = 0) : later = [] := by
  obtain ⟨x, xs, hx, lone⟩ := Digit.exists_ofNat d.coefficient
  have leading : x = 0 → d.coefficient = 0 := fun zero => Digit.eq_zero_of_ofNat (zero ▸ hx)
  change d.digits = x :: xs at hx
  by_cases integral : 0 ≤ d.exponent
  · rw [d.whole_of_nonneg integral, hx, List.cons_append] at h
    obtain ⟨rfl, rfl⟩ := List.cons.inj h
    have none := leading zero
    rw [lone zero, show d.exponent.toNat = 0 by omega]
    rfl
  · have placed : d.exponent.toNat = 0 := by omega
    rw [whole, placed, List.replicate_zero, List.append_nil] at h
    obtain inside | before := Nat.lt_or_ge d.places d.digits.length
    · -- the first digit is that of the coefficient
      have same : d.padded = x :: xs := by
        rw [padded, Nat.sub_eq_zero_of_le inside, List.replicate_zero, List.nil_append, hx]
      have some : d.padded.length - d.places ≠ 0 := Nat.sub_ne_zero_of_lt d.places_lt_length_padded
      obtain ⟨n, hn⟩ := Nat.exists_eq_add_one_of_ne_zero some
      rw [hn, same, List.take_succ_cons] at h
      have := leading ((List.cons.inj h).1.trans zero)
      omega
    · have length : d.padded.length = d.places + 1 := by
        rw [padded, List.length_append, List.length_replicate]
        omega
      have sum := congrArg List.length h
      rw [List.length_take, List.length_cons] at sum
      rw [← List.length_eq_zero_iff]
      omega

end Decimal

namespace Binary

theorem readMagnitude?_positional (g : Format) (negative : Bool) (d : Decimal) :
    readMagnitude? g negative d.positional =
      some (nearest g negative (Digit.toNat (d.whole ++ d.fraction)) (10 ^ d.fraction.length)) := by
  obtain ⟨first, later, hw⟩ := d.exists_whole
  rw [d.positional_eq, hw]
  cases d.fraction with
  | nil =>
    rw [Json.NumberToken.fractionText, if_pos rfl, readMagnitude?]
    simp only [Digit.span_chars_all, List.append_nil, List.length_nil, pow_zero]
  | cons digit digits =>
    have point : Digit.Stops ('.' :: Digit.chars (digit :: digits)) := by
      intro c hc
      cases hc
      rfl
    have spans := Digit.span_chars (first :: later) point
    rw [Json.NumberToken.fractionText, if_neg (List.cons_ne_nil digit digits), readMagnitude?]
    simp only [spans, Digit.span_chars_all, Nat.pow_eq]

/-- A positional text with its sign is read as the datum nearest to the decimal. -/
theorem read?_positional (g : Format) (negative : Bool) (d : Decimal) :
    read? g (if negative then '-' :: d.positional else d.positional) =
      some (nearest g negative (Digit.toNat (d.whole ++ d.fraction)) (10 ^ d.fraction.length)) := by
  obtain ⟨first, later, hw⟩ := d.exists_whole
  obtain ⟨rest, hd⟩ : ∃ rest, d.positional = first.toChar :: rest := by
    rw [d.positional_eq, hw]
    exact ⟨_, rfl⟩
  have letter (c : Char) (hc : Digit.ofChar? c = none) : first.toChar ≠ c :=
    Digit.ofChar?_of_ne first hc
  rw [← readMagnitude?_positional, hd]
  cases negative
  · rw [if_neg Bool.false_ne_true]
    unfold read?
    split
    next h => exact absurd (List.cons.inj h).1 (letter 'N' (by decide))
    next h => exact absurd (List.cons.inj h).1 (letter 'i' (by decide))
    next h => exact absurd (List.cons.inj h).1 (letter '-' (by decide))
    next h => exact absurd (List.cons.inj h).1 (letter '-' (by decide))
    next => rfl
  · rw [if_pos rfl]
    unfold read?
    split
    next h => exact absurd (List.cons.inj h).1 (by decide)
    next h => exact absurd (List.cons.inj h).1 (by decide)
    next h => exact absurd (List.cons.inj (List.cons.inj h).2).1 (letter 'i' (by decide))
    next h =>
      obtain rfl := (List.cons.inj h).2
      rfl
    next h => exact absurd rfl (h _)

end Binary

end Untyped
