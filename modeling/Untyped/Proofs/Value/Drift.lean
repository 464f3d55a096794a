import Mathlib
import Untyped.Proofs.Json.Literal
import Untyped.Proofs.Json.Scaling
import Untyped.Proofs.Value.Load

/-! A double that is written and loaded again. It stays finite and keeps its sign, and it is at most
two ranks away from what it was. -/
namespace Untyped
open Binary (Finite)
open Format (double)

namespace Json

theorem LiteralOf.isSome_scaled {x : Finite .double} {t : NumberToken} (h : LiteralOf x t)
    {d : Decimal} (written : x.shortest .even = d) (long : 15 < d.leading)
    (finite : (Numeral.scaled (.ofNat .double d.coefficient) d.exponent).isSome) :
    (Numeral.scaled (.ofNat .double t.significand) t.power).isSome := by
  obtain ⟨significand, power⟩ | ⟨_, short, _⟩ := h.scaled
  · rwa [significand, power, written]
  · rw [written] at short
    omega

theorem isSome_scaled_of_top {x : Finite .double} {t : NumberToken} (h : LiteralOf x t)
    (top : double.count ≤ x.rank + 2) :
    (Numeral.scaled (.ofNat .double t.significand) t.power).isSome := by
  have below := x.rank_lt
  have count : double.count = 0x7ff0000000000000 := by decide
  have nonzero : ¬x.isZero := by
    rw [Finite.isZero, beq_iff_eq]
    omega
  have shortest : x.shortest .even = (double.interval x.rank).shortest .even double.places :=
    if_neg nonzero
  obtain last | before : x.rank = 0x7fefffffffffffff ∨ x.rank = 0x7feffffffffffffe := by omega
  · have written : x.shortest .even = ⟨17976931348623157, 292⟩ := by
      rw [shortest, last]
      decide +kernel
    exact h.isSome_scaled written (by decide +kernel) (by decide +kernel)
  · have written : x.shortest .even = ⟨17976931348623155, 292⟩ := by
      rw [shortest, before]
      decide +kernel
    exact h.isSome_scaled written (by decide +kernel) (by decide +kernel)

/-- The literal of a double means a double that is at most two ranks away. -/
theorem LiteralOf.exists_number? {x : Finite .double} {t : NumberToken} (h : LiteralOf x t) :
    ∃ y : Finite .double, t.number? = some (.float y) ∧ y.negative = x.negative ∧
      y.rank ≤ x.rank + 2 ∧ x.rank ≤ y.rank + 2 ∧
      (t.significand ≤ 2 ^ 53 → t.power.natAbs ≤ 22 → y = x) := by
  have rounds : double.RoundsTo (t.significand * 10 ^ t.power) x.rank := by
    rw [h.toRat_eq]
    exact x.roundsTo_shortest .even
  obtain ⟨near, scaled, above, below, exact⟩ :=
    Numeral.exists_scaled_rank h.fits.le h.low h.high rounds
  have finite : near < double.count := by
    by_contra infinite
    have none : (Binary.ofRank .double false near).finite? = none := by
      rw [Binary.ofRank, dif_neg infinite]
      rfl
    have some := isSome_scaled_of_top h (by omega)
    rw [scaled, none] at some
    cases some
  have result : (Binary.ofRank .double false near).finite? = some ⟨false, near, finite⟩ := by
    rw [Binary.ofRank, dif_pos finite]
    rfl
  have rounded : t.integer?.bind Number.ofInt? = none := by rw [h.whole, Option.bind_none]
  have number := NumberToken.number?_of_scaled h.fits rounded h.short (scaled.trans result)
  rw [h.negative] at number
  refine ⟨_, number, rfl, above, below, fun short few => ?_⟩
  obtain rfl := exact short few
  rfl

end Json

theorem loadValue_of_spaced {text : String} {before after : Json.Blank} {t : Json.NumberToken}
    {n : Json.Number} (written : text.toList = before.chars ++ t.text ++ after.chars)
    (number : t.number? = some n) (identity : Nat) :
    loadValue identity text = .ok n.toValue := by
  have derived : (Json.Element.scalar before (.number t) after).text = text.toList := written.symm
  have tree : (Json.Element.scalar before (.number t) after).tree? = some (.number n) := by
    rw [Json.Element.tree?_scalar, Json.Scalar.tree?, number, Option.map_some]
  exact loadValue_of_derived derived (Nat.zero_le _) tree identity

theorem loadValue_of_number? {text : String} {t : Json.NumberToken} {n : Json.Number}
    (written : t.text = text.toList) (number : t.number? = some n) (identity : Nat) :
    loadValue identity text = .ok n.toValue := by
  have spaced : text.toList = Json.Blank.none.chars ++ t.text ++ Json.Blank.none.chars := by
    simp [Json.Blank.none, written]
  exact loadValue_of_spaced spaced number identity

/-- A finite double that is written loads as a finite double of its sign and at most two ranks away.
It loads as itself where the digits of the literal, as a whole number, are at most `2 ^ 53` and the
power of ten that scales them is at most `10 ^ 22` and at least `10 ^ (-22)`. -/
theorem loadValue_compact_double (identity : Nat) (x : Finite .double) :
    let text := (Value.double (.finite x)).toJson.compact
    ∃ (t : Json.NumberToken) (y : Finite .double), t.text = text.toList ∧
      loadValue identity text = .ok (.double (.finite y)) ∧ y.negative = x.negative ∧
      y.rank ≤ x.rank + 2 ∧ x.rank ≤ y.rank + 2 ∧
      (t.significand ≤ 2 ^ 53 → t.power.natAbs ≤ 22 → y = x) := by
  intro text
  obtain ⟨t, literal⟩ := Json.exists_literalOf x
  obtain ⟨y, number, sign, above, below, exact⟩ := literal.exists_number?
  have written : t.text = text.toList := by
    rw [literal.text]
    exact String.toList_ofList.symm
  exact ⟨t, y, written, loadValue_of_number? written number identity, sign, above, below, exact⟩

/-- The double nearest to `10 ^ (-30)` loads as the one before it. -/
theorem loadValue_compact_double_inexact :
    let x : Finite .double := ⟨false, 0x39b4484bfeebc2a0, by decide⟩
    let y : Finite .double := ⟨false, 0x39b4484bfeebc29f, by decide⟩
    (Value.double (.finite x)).toJson.compact = "1e-30" ∧
      loadValue 0 "1e-30" = .ok (.double (.finite y)) ∧
      loadValue 0 (Value.double (.finite x)).toJson.compact ≠ .ok (.double (.finite x)) := by
  intro x y
  have text : (Value.double (.finite x)).toJson.compact = "1e-30" := by decide +kernel
  let t : Json.NumberToken :=
    ⟨false, 1, [], fun _ => rfl, [], some ⟨false, some true, [3, 0], List.cons_ne_nil _ _⟩⟩
  have written : t.text = "1e-30".toList := by decide
  have number : t.number? = some (.float y) := by decide +kernel
  have loaded : loadValue 0 "1e-30" = .ok (.double (.finite y)) :=
    loadValue_of_number? written number 0
  refine ⟨text, loaded, ?_⟩
  rw [text, loaded]
  simp only [ne_eq, Except.ok.injEq, Value.double.injEq, Binary.finite.injEq]
  intro same
  exact absurd (congrArg Finite.rank same) (by decide)

/-- A double can come back two ranks away. -/
example :
    let x : Finite .double := ⟨false, 0x1c6d0485ee52274b, by decide⟩
    let d := x.shortest .even
    (Json.Numeral.scaled (.ofNat .double d.coefficient) d.exponent).map Finite.rank =
      some (x.rank + 2) := by
  decide +kernel

end Untyped
